import WordPackage.Assignments

/-!
# Elements

The trees from which generated parts are written: an element has a qualified
name, attributes, an optional text and child elements. The text of an element
stands before its children.
-/

namespace WordPackage.Markup

/-- An element of a document. -/
structure Element where
  name : String
  attributes : Assignments String String := []
  /-- The text before the children. An empty text is a text. -/
  text : Option String := none
  children : List Element := []
  deriving Inhabited

namespace Element

mutual

/-- Whether two elements are equal. -/
def same : Element → Element → Bool
  | ⟨name, attributes, text, children⟩, ⟨name', attributes', text', children'⟩ =>
      name == name' && attributes == attributes' && text == text' && sameAll children children'

/-- Whether two lists of elements are equal. -/
def sameAll : List Element → List Element → Bool
  | [], [] => true
  | element :: rest, element' :: rest' => same element element' && sameAll rest rest'
  | _, _ => false

end

mutual

theorem same_iff : ∀ (element other : Element), same element other = true ↔ element = other
  | ⟨name, attributes, text, children⟩, ⟨name', attributes', text', children'⟩ => by
      simp [same, sameAll_iff children children', and_assoc]

/-- The comparison of lists of elements decides their equality. -/
theorem sameAll_iff : ∀ (elements others : List Element),
    sameAll elements others = true ↔ elements = others
  | [], [] => by simp [sameAll]
  | [], _ :: _ => by simp [sameAll]
  | _ :: _, [] => by simp [sameAll]
  | element :: rest, element' :: rest' => by
      simp [sameAll, same_iff element element', sameAll_iff rest rest']

end

instance : DecidableEq Element := fun element other =>
  decidable_of_iff (same element other = true) (same_iff element other)

/-- Assign an attribute, replacing an earlier value of the same key in place. -/
def setAttribute (element : Element) (key value : String) : Element :=
  { element with attributes := element.attributes.set key value }

def attribute? (element : Element) (key : String) : Option String :=
  element.attributes.get? key

def withText (element : Element) (text : String) : Element :=
  { element with text := some text }

def pushChild (element child : Element) : Element :=
  { element with children := element.children ++ [child] }

def childrenNamed (element : Element) (name : String) : List Element :=
  element.children.filter fun child => child.name = name

def removeChildrenNamed (element : Element) (name : String) : Element :=
  { element with children := element.children.filter fun child => child.name ≠ name }

/-- An element with the given attributes, set in order. -/
def withAttributes (name : String) (attributes : List (String × String)) : Element :=
  { name, attributes := .ofList attributes }

end Element

end WordPackage.Markup
