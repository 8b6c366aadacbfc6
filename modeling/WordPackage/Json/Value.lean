import WordPackage.Text.Quoted

/-!
# Writing JSON

The values that records and settings are written as, and their two layouts:
compact, without any blanks, and indented by two spaces a level. Strings escape
the quotation mark, the backslash and the controls below the space, nothing else.
-/

namespace WordPackage.Json

/-- A JSON value. Fields of an object keep their order. -/
inductive Value where
  | null
  | flag (value : Bool)
  | text (value : String)
  | list (items : List Value)
  | object (fields : List (String × Value))
  deriving Inhabited

/-- One character inside a JSON string. -/
def escapeChar (char : Char) : List Char :=
  if char = '"' then ['\\', '"']
  else if char = '\\' then ['\\', '\\']
  else if char = '\x08' then ['\\', 'b']
  else if char = '\t' then ['\\', 't']
  else if char = '\n' then ['\\', 'n']
  else if char = '\x0c' then ['\\', 'f']
  else if char = '\r' then ['\\', 'r']
  else if char.toNat < 0x20 then
    ['\\', 'u', '0', '0', Nat.digitChar (char.toNat / 16), Nat.digitChar (char.toNat % 16)]
  else [char]

def quoted (text : String) : List Char :=
  '"' :: text.toList.flatMap escapeChar ++ ['"']

/-- Items with a separator between them. -/
def separated (separator : List Char) (items : List (List Char)) : List Char :=
  separator.intercalate items

namespace Value

mutual

/-- The characters of a value in the compact layout. -/
def compactChars : Value → List Char
  | .null => "null".toList
  | .flag true => "true".toList
  | .flag false => "false".toList
  | .text value => quoted value
  | .list items => '[' :: separated [','] (compactItems items) ++ [']']
  | .object fields => '\x7b' :: separated [','] (compactFields fields) ++ ['\x7d']

/-- The items of an array in the compact layout. -/
def compactItems : List Value → List (List Char)
  | [] => []
  | item :: rest => compactChars item :: compactItems rest

/-- The fields of an object in the compact layout. -/
def compactFields : List (String × Value) → List (List Char)
  | [] => []
  | (name, value) :: rest => (quoted name ++ ':' :: compactChars value) :: compactFields rest

end

/-- A line break with the indentation of a level. -/
def lineBreak (level : Nat) : List Char :=
  '\n' :: List.replicate (2 * level) ' '

/-- Bracketed items, each on a line of its own one level further in. -/
def bracketed (level : Nat) (opening closing : Char) (items : List (List Char)) : List Char :=
  match items with
  | [] => [opening, closing]
  | items =>
      opening :: lineBreak (level + 1) ++ separated (',' :: lineBreak (level + 1)) items
        ++ lineBreak level ++ [closing]

mutual

/-- The characters of a value that stands at a level of the indented layout. -/
def indentedChars (level : Nat) : Value → List Char
  | .null => "null".toList
  | .flag true => "true".toList
  | .flag false => "false".toList
  | .text value => quoted value
  | .list items => bracketed level '[' ']' (indentedItems (level + 1) items)
  | .object fields => bracketed level '\x7b' '\x7d' (indentedFields (level + 1) fields)

/-- The items of an array in the indented layout. -/
def indentedItems (level : Nat) : List Value → List (List Char)
  | [] => []
  | item :: rest => indentedChars level item :: indentedItems level rest

/-- The fields of an object in the indented layout. -/
def indentedFields (level : Nat) : List (String × Value) → List (List Char)
  | [] => []
  | (name, value) :: rest =>
      (quoted name ++ ':' :: ' ' :: indentedChars level value) :: indentedFields level rest

end

def compact (value : Value) : String :=
  .ofList value.compactChars

def indented (value : Value) : String :=
  .ofList (value.indentedChars 0)

/-- A text or null. -/
def ofOption : Option String → Value
  | none => .null
  | some value => .text value

/-- An array of texts. -/
def ofTexts (texts : List String) : Value :=
  .list (texts.map .text)

end Value

end WordPackage.Json
