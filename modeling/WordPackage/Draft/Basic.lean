import WordPackage.Metadata.PropertyWriter
import WordPackage.ContentType.Declarations
import WordPackage.Relationship.Part
import WordPackage.Resource.Source
import WordPackage.Resource.Store
import WordPackage.Resource.Target

/-!
# Drafts of packages

A draft holds everything that a package will consist of until it is written:
supplied documents, the relationships of the main document and of the font
table, the metadata, and the embedded images and fonts. Registering a resource
either succeeds, and gives the identifier of its relationship, or leaves the
draft as it was.
-/

namespace WordPackage

/-- A package that is being put together. -/
structure Draft where
  settings : Settings
  properties : PropertyWriter
  mime : MimeLookup
  metadata : MetadataRecord
  document : Option String
  styles : Option String
  fontTable : Option String
  /-- The supplied optional parts, in the order in which they were first supplied. -/
  optionalParts : Assignments OptionalPart String
  documentRelationships : Registry
  fontTableRelationships : Registry
  images : ResourceStore ResourceSource
  fonts : ResourceStore ByteArray

namespace Draft

/-- The draft of a package to which nothing was added yet. -/
def ofSettings (settings : Settings) : Draft where
  settings := settings
  properties := .ofSettings settings
  mime := MimeTable.lookup {}
  metadata := {}
  document := none
  styles := none
  fontTable := none
  optionalParts := []
  documentRelationships := .document
  fontTableRelationships := .empty
  images := .empty
  fonts := .empty

def withMimeLookup (draft : Draft) (mime : MimeLookup) : Draft :=
  { draft with mime }

/-- Replace the writer of the property parts. The settings of the draft stay as they are. -/
def withPropertyWriter (draft : Draft) (properties : PropertyWriter) : Draft :=
  { draft with properties }

def setDocument (draft : Draft) (text : String) : Draft :=
  { draft with document := some text }

def setStyles (draft : Draft) (text : String) : Draft :=
  { draft with styles := some text }

def setFontTable (draft : Draft) (text : String) : Draft :=
  { draft with fontTable := some text }

def setMetadata (draft : Draft) (metadata : MetadataRecord) : Draft :=
  { draft with metadata }

/-- What determines the relationship to an optional part. -/
def optionalKey (part : OptionalPart) : RelationshipKey :=
  { target := part.target, kind := part.relationshipType }

/-- Supply an optional part, replacing an earlier one of its kind. Gives the
identifier of its relationship. -/
def setOptionalPart (draft : Draft) (part : OptionalPart) (text : String) : String × Draft :=
  let registered := draft.documentRelationships.add (optionalKey part)
  (registered.1,
    { draft with
      optionalParts := draft.optionalParts.set part text
      documentRelationships := registered.2 })

/-- Embed an image that the main document refers to. -/
def addImage (draft : Draft) (target : String) (source : ResourceSource) :
    Except Failure (String × Draft) :=
  match ResourceTarget.parse target with
  | .error failure => .error failure
  | .ok resource =>
      if draft.fonts.contains resource.path then
        .error (.defective (.targetOfFont resource.target))
      else
        let registered := draft.documentRelationships.addImage resource.target
        .ok (registered.1,
          { draft with
            images := draft.images.insert resource.path source
            documentRelationships := registered.2 })

/-- Embed a font that the font table refers to. -/
def addFont (draft : Draft) (target : String) (data : ByteArray) :
    Except Failure (String × Draft) :=
  match ResourceTarget.parse target with
  | .error failure => .error failure
  | .ok resource =>
      if draft.images.contains resource.path then
        .error (.defective (.targetOfImage resource.target))
      else
        let registered := draft.fontTableRelationships.addFont resource.target
        .ok (registered.1,
          { draft with
            fonts := draft.fonts.insert resource.path data
            fontTableRelationships := registered.2 })

/-- The layout of generated parts. -/
def layout (draft : Draft) : Markup.Layout :=
  .ofPretty draft.settings.prettyPrint

end Draft

end WordPackage
