import WordPackage.ContentType.Declarations
import WordPackage.Markup.Event
import WordPackage.Failure

/-!
# Reading the manifest

A manifest read back from its part. Of several declarations of one extension or
one part the last holds; extensions declared more than once are kept to be
reported. Declarations that lack an attribute are passed over.
-/

namespace WordPackage

/-- The content types that a manifest declares. -/
structure Manifest where
  defaults : Assignments String String := []
  /-- Content types by part name, as it is written in the manifest. -/
  overrides : Assignments String String := []
  /-- Extensions that were declared before, as they were declared again. -/
  duplicates : List String := []
  deriving DecidableEq, Repr

namespace Manifest

/-- A manifest with one more default. -/
def addDefault (manifest : Manifest) (extension contentType : String) : Manifest :=
  let folded := Text.foldAscii extension
  { manifest with
    defaults := manifest.defaults.set folded contentType
    duplicates :=
      if (manifest.defaults.get? folded).isSome then manifest.duplicates ++ [extension]
      else manifest.duplicates }

/-- A manifest with one more override. -/
def addOverride (manifest : Manifest) (partName contentType : String) : Manifest :=
  { manifest with overrides := manifest.overrides.set partName contentType }

/-- A manifest with what a tag declares. -/
def addTag (manifest : Manifest) (tag : Markup.Tag) : Manifest :=
  if tag.isNamed "Default" then
    match tag.attribute? "Extension", tag.attribute? "ContentType" with
    | some extension, some contentType => manifest.addDefault extension contentType
    | _, _ => manifest
  else if tag.isNamed "Override" then
    match tag.attribute? "PartName", tag.attribute? "ContentType" with
    | some partName, some contentType => manifest.addOverride partName contentType
    | _, _ => manifest
  else manifest

/-- The manifest that a document holds. -/
def parse (text : String) : Except Failure Manifest :=
  let reading := Markup.Reading.ofText text
  match reading.fault with
  | some fault => .error (.markup fault)
  | none => .ok (reading.tags.foldl addTag {})

/-- The content type of an entry: that of its override, else that of the
extension after its last dot. -/
def contentTypeFor (manifest : Manifest) (path : String) : Option String :=
  match manifest.overrides.get? (rooted path) with
  | some contentType => some contentType
  | none =>
      (Text.afterLast? '.' path).bind fun extension =>
        manifest.defaults.get? (Text.foldAscii extension)

end Manifest

end WordPackage
