import WordPackage.Text.Unprintable

/-!
# Quoted text

A text written between quotation marks so that a reader can tell every
character of it: marks and backslashes are escaped, common controls have short
escapes, and every other character that would not show is written by its code
point. Messages quote the offending text in this form.
-/

namespace WordPackage.Text

/-- The hexadecimal digits of a number, in small letters without leading zeros. -/
def hexDigits (number : Nat) : String :=
  .ofList (Nat.toDigits 16 number)

/-- One character as it stands in a quoted text. -/
def quoteChar (char : Char) : String :=
  if char = '\x00' then "\\0"
  else if char = '\t' then "\\t"
  else if char = '\n' then "\\n"
  else if char = '\r' then "\\r"
  else if char = '"' then "\\\""
  else if char = '\\' then "\\\\"
  else if isUnprintable char then "\\u\x7b" ++ hexDigits char.toNat ++ "\x7d"
  else char.toString

/-- A text in quotation marks. -/
def quote (text : String) : String :=
  "\"" ++ .join (text.toList.map quoteChar) ++ "\""

def quoteList (texts : List String) : String :=
  "[" ++ ", ".intercalate (texts.map quote) ++ "]"

end WordPackage.Text
