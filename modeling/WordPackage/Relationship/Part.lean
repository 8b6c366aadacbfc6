import WordPackage.Relationship.Registry
import WordPackage.Markup.Layout
import WordPackage.Markup.Event
import WordPackage.Failure

/-!
# Relationship parts

A registry is written as a document with one element for each relationship.
Reading takes every element of the right local name, wherever it stands, and
needs an identifier, a type and a target in each; values are taken as written.
-/

namespace WordPackage

/-- The element of one relationship. The mode is written if it is external. -/
def RelationshipKey.element (key : RelationshipKey) (id : String) : Markup.Element :=
  let listed := Markup.Element.withAttributes "Relationship"
    [("Id", id), ("Type", key.kind), ("Target", key.target)]
  match key.mode with
  | .internal => listed
  | .external => listed.setAttribute "TargetMode" key.mode.name

/-- The root element of a relationship part. -/
def Registry.element (registry : Registry) : Markup.Element :=
  { Markup.Element.withAttributes "Relationships" [("xmlns", Namespace.packageRelationships)] with
    children := registry.entries.map fun (id, key) => key.element id }

/-- The relationship part of a registry. -/
def Registry.part (registry : Registry) (layout : Markup.Layout) : String :=
  registry.element.document layout

namespace Relationship

/-- The value of an attribute that every relationship has. -/
def required (tag : Markup.Tag) (key : String) : Except Failure String :=
  match tag.attribute? key with
  | some value => .ok value
  | none => .error (.defective (.relationshipWithout key))

/-- The mode that an attribute value stands for. -/
def modeOf (value : Option String) : TargetMode :=
  if value = some "External" then .external else .internal

/-- The relationship of a tag. -/
def ofTag (tag : Markup.Tag) : Except Failure Relationship := do
  let id ← required tag "Id"
  let kind ← required tag "Type"
  let target ← required tag "Target"
  return { id, kind, target, mode := modeOf (tag.attribute? "TargetMode") }

/-- The relationships of tags, up to the first that is defective. -/
def ofTags : List Markup.Tag → Except Failure (List Relationship)
  | [] => return []
  | tag :: rest =>
      if tag.isNamed "Relationship" then do
        let relationship ← ofTag tag
        let later ← ofTags rest
        return relationship :: later
      else ofTags rest

/-- The relationships that a document lists, in document order. A defective
relationship before a fault of the document decides. -/
def parse (text : String) : Except Failure (List Relationship) := do
  let reading := Markup.Reading.ofText text
  let relationships ← ofTags reading.tags
  match reading.fault with
  | some fault => throw (.markup fault)
  | none => return relationships

end Relationship

end WordPackage
