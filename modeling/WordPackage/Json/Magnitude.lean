import WordPackage.Json.Lexeme

/-!
# Numbers that are out of range

A number that stands where another kind of value is expected is refused for its
kind, unless the number itself is refused first: for its form, or because it
exceeds every finite double-precision value. The number counts as the product
of its leading digits, at most twenty of them, and a power of ten, each rounded
to 53 significant bits.
-/

namespace WordPackage.Json

/-- The nearest number with at most 53 significant bits; of two, the one whose
last bit is zero. -/
def nearestSignificand (number : Nat) : Nat :=
  if number < Nat.pow 2 53 then number
  else
    let unit := Nat.pow 2 (number.log2 - 52)
    let whole := number / unit
    let half := 2 * (number % unit)
    if half < unit ∨ (half = unit ∧ whole % 2 = 0) then whole * unit else (whole + 1) * unit

/-- Whether `digits * 10 ^ power` exceeds every finite double-precision value. -/
def isOutOfRange (digits : Nat) (power : Int) : Bool :=
  digits ≠ 0 &&
    (308 < power ||
      (0 ≤ power &&
        Nat.pow 2 1024 - Nat.pow 2 970
          ≤ nearestSignificand digits * nearestSignificand (Nat.pow 10 power.toNat)))

/-- Append decimal digits to a number while it stays below `2 ^ 64`, and count
the digits that are left over. -/
def appendDigits (number : Nat) : List Char → Nat × Nat
  | [] => (number, 0)
  | digit :: rest =>
      let longer := number * 10 + (digit.toNat - '0'.toNat)
      if longer < UInt64.size then appendDigits longer rest else (number, rest.length + 1)

/-- Why a number with the given digits and power of ten is refused, its exponent
being given from behind the letter. The leading digits of an exponent that does
not fit into 64 bits decide as the whole does. -/
def exponentFault (digits : Nat) (power : Int) (chars : List Char) : Fault :=
  let negative := chars.head? = some '-'
  let unsigned := if chars.head? = some '-' ∨ chars.head? = some '+' then chars.drop 1 else chars
  match unsigned with
  | [] => .truncated
  | digit :: rest =>
      if digit.isDigit then
        let shown := digit :: rest.takeWhile Char.isDigit
        let exponent : Int := (appendDigits 0 shown).1
        if isOutOfRange digits (if negative then power - exponent else power + exponent) then
          .malformed
        else .mismatched
      else .malformed

/-- Why a number is refused whose digits and power of ten are given and after
which only an exponent may come. -/
def scaleFault (digits : Nat) (power : Int) (chars : List Char) : Fault :=
  match chars with
  | 'e' :: rest => exponentFault digits power rest
  | 'E' :: rest => exponentFault digits power rest
  | _ => if isOutOfRange digits power then .malformed else .mismatched

/-- Why a number is refused whose integer digits and power of ten are given. -/
def fractionFault (digits : Nat) (power : Int) (chars : List Char) : Fault :=
  match chars with
  | '.' :: rest =>
      match rest.takeWhile Char.isDigit with
      | [] => if rest.isEmpty then .truncated else .malformed
      | shown =>
          let longer := appendDigits digits shown
          scaleFault longer.1 (power - (shown.length - longer.2)) (rest.dropWhile Char.isDigit)
  | _ => scaleFault digits power chars

/-- Why a number is refused where another kind of value is expected. The number
is given from behind its sign. -/
def numberFault (chars : List Char) : Fault :=
  match chars with
  | [] => .truncated
  | '0' :: rest => if rest.head?.any Char.isDigit then .malformed else fractionFault 0 0 rest
  | digit :: rest =>
      if digit.isDigit then
        let shown := digit :: rest.takeWhile Char.isDigit
        let leading := appendDigits 0 shown
        fractionFault leading.1 leading.2 (rest.dropWhile Char.isDigit)
      else .malformed

end WordPackage.Json
