import WordPackage.Markup.Element
import WordPackage.Text.Segments
import WordPackage.Text.Blank

/-!
# Writing elements

A document is the standard declaration, a line feed and one element. Five
characters are written as entities in texts and attribute values; names are
written as they are. The indented layout puts every tag on a line of its own
unless it is the first thing written or directly follows a text.
-/

namespace WordPackage.Markup

/-- The declaration at the start of every written document. -/
def declaration : String :=
  "<?xml version=\"1.0\" encoding=\"UTF-8\" standalone=\"yes\"?>"

/-- How tags are placed on lines. -/
inductive Layout where
  | compact
  | indented
  deriving DecidableEq, Repr

/-- The layout that the setting for indented parts selects. -/
def Layout.ofPretty (pretty : Bool) : Layout :=
  if pretty then .indented else .compact

/-- One character of a text or attribute value as it is written. -/
def escapeChar (char : Char) : List Char :=
  if char = '<' then "&lt;".toList
  else if char = '>' then "&gt;".toList
  else if char = '&' then "&amp;".toList
  else if char = '\'' then "&apos;".toList
  else if char = '"' then "&quot;".toList
  else [char]

/-- A text or attribute value as it is written. -/
def escape (chars : List Char) : List Char :=
  chars.flatMap escapeChar

/-- What a written document consists of. -/
inductive Piece where
  | tag (depth : Nat) (markup : List Char)
  | text (escaped : List Char)
  deriving DecidableEq, Repr

/-- A name with its attributes, as it stands inside a tag. -/
def tagContent (name : String) (attributes : List (String × String)) : List Char :=
  name.toList ++ attributes.flatMap fun pair =>
    ' ' :: pair.1.toList ++ "=\"".toList ++ escape pair.2.toList ++ ['"']

mutual

/-- The pieces of an element that stands at the given depth. -/
def Element.pieces (depth : Nat) : Element → List Piece
  | ⟨name, attributes, text, children⟩ =>
      if text.isNone && children.isEmpty then
        [.tag depth ('<' :: tagContent name attributes ++ "/>".toList)]
      else
        .tag depth ('<' :: tagContent name attributes ++ ['>'])
          :: (text.toList.map fun shown => Piece.text (escape shown.toList))
          ++ Element.piecesAll (depth + 1) children
          ++ [.tag depth ("</".toList ++ name.toList ++ ['>'])]

/-- The pieces of elements that stand side by side at the given depth. -/
def Element.piecesAll (depth : Nat) : List Element → List Piece
  | [] => []
  | element :: rest => element.pieces depth ++ Element.piecesAll depth rest

end

/-- The pieces of a document one after another. The flag says whether a tag
that comes next starts a new line. -/
def Layout.place (layout : Layout) : Bool → List Piece → List Char
  | _, [] => []
  | _, .text escaped :: rest => escaped ++ layout.place false rest
  | breaks, .tag depth markup :: rest =>
      (if breaks && layout == .indented then '\n' :: List.replicate (2 * depth) ' ' else [])
        ++ markup ++ layout.place true rest

/-- An element as it is written, without a declaration. -/
def Element.body (layout : Layout) (element : Element) : List Char :=
  layout.place false (element.pieces 0)

/-- The document that consists of an element. -/
def Element.document (layout : Layout) (element : Element) : String :=
  .ofList (declaration.toList ++ '\n' :: element.body layout)

/-- A document supplied from elsewhere: unchanged if it starts with a declaration,
leading blanks aside, else with the standard declaration before it. -/
def ensureDeclaration (text : String) : String :=
  if "<?xml".toList.isPrefixOf (text.toList.dropWhile Text.isBlank) then
    text
  else
    declaration ++ "\n" ++ text

@[simp] theorem escape_append (front back : List Char) :
    escape (front ++ back) = escape front ++ escape back :=
  List.flatMap_append

theorem toList_document (layout : Layout) (element : Element) :
    (element.document layout).toList = declaration.toList ++ '\n' :: element.body layout :=
  String.toList_ofList

end WordPackage.Markup
