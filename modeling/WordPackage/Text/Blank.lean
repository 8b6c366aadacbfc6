/-!
# White space

The Unicode property `White_Space` and the removal of such characters from the
ends of a text. Names of people, version numbers and language tags are trimmed
with these functions; markup and JSON have narrower blanks of their own.
-/

namespace WordPackage.Text

/-- Whether a character has the Unicode property `White_Space`. -/
def isBlank (char : Char) : Bool :=
  let code := char.toNat
  (0x09 ≤ code && code ≤ 0x0D) || code == 0x20 || code == 0x85 || code == 0xA0 ||
    code == 0x1680 || (0x2000 ≤ code && code ≤ 0x200A) || code == 0x2028 ||
    code == 0x2029 || code == 0x202F || code == 0x205F || code == 0x3000

/-- The characters without those at the end that satisfy `drops`. -/
def dropEndWhile (drops : Char → Bool) (chars : List Char) : List Char :=
  (chars.reverse.dropWhile drops).reverse

/-- The characters without the blanks at both ends. -/
def trimBlanks (chars : List Char) : List Char :=
  dropEndWhile isBlank (chars.dropWhile isBlank)

/-- A text without the blanks at both ends. -/
def trim (text : String) : String :=
  .ofList (trimBlanks text.toList)

end WordPackage.Text
