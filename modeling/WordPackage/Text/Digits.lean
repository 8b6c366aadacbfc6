/-!
# Decimal digits

Numbers written with at least a given number of digits, and numbers read from
digits.
-/

namespace WordPackage.Text

/-- A number in decimal, with zeros before it up to the given number of digits. -/
def padded (digits number : Nat) : List Char :=
  let shown := Nat.toDigits 10 number
  List.replicate (digits - shown.length) '0' ++ shown

/-- The number that decimal digits stand for. -/
def number? (chars : List Char) : Option Nat :=
  if chars ≠ [] ∧ chars.all Char.isDigit then
    some (chars.foldl (fun number digit => number * 10 + (digit.toNat - '0'.toNat)) 0)
  else
    none

end WordPackage.Text
