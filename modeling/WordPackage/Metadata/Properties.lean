import WordPackage.Markup.Layout
import WordPackage.Vocabulary

/-!
# Property documents

A property document is an element whose children are the properties. Setting a
property removes every child of its name and puts the new one at the end, so no
name occurs twice.
-/

namespace WordPackage

/-- A document of properties. -/
structure Properties where
  root : Markup.Element
  deriving DecidableEq

namespace Properties

/-- The document of core properties without any property. -/
def core : Properties where
  root := .withAttributes "cp:coreProperties" [
    ("xmlns:cp", Namespace.coreProperties),
    ("xmlns:dc", Namespace.dublinCore),
    ("xmlns:dcterms", Namespace.dublinCoreTerms),
    ("xmlns:xsi", Namespace.schemaInstance)]

/-- The document of extended properties without any property. -/
def extended : Properties where
  root := .withAttributes "Properties" [("xmlns", Namespace.extendedProperties)]

/-- Set a property given as an element. -/
def setElement (properties : Properties) (element : Markup.Element) : Properties where
  root := (properties.root.removeChildrenNamed element.name).pushChild element

def set (properties : Properties) (name text : String) : Properties :=
  properties.setElement { name, text := some text }

/-- The first property of a name. -/
def get? (properties : Properties) (name : String) : Option Markup.Element :=
  properties.root.children.find? fun child => child.name = name

def count (properties : Properties) (name : String) : Nat :=
  (properties.root.childrenNamed name).length

def part (properties : Properties) (layout : Markup.Layout) : String :=
  properties.root.document layout

end Properties

end WordPackage
