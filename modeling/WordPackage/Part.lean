import WordPackage.Vocabulary
import WordPackage.Text.Segments

/-!
# Parts of a package

Every package has ten entries of its own. Five more parts are written only when
they are supplied, and are referred to by the main document. No embedded
resource may take the name of any of them.
-/

namespace WordPackage

/-- A part that is written only when it is supplied. -/
inductive OptionalPart where
  | numbering
  | settings
  | footnotes
  | endnotes
  | theme
  deriving DecidableEq, Repr

namespace OptionalPart

def all : List OptionalPart := [.numbering, .settings, .footnotes, .endnotes, .theme]

/-- The target of the relationship from the main document to a part. -/
def target : OptionalPart → String
  | .numbering => "numbering.xml"
  | .settings => "settings.xml"
  | .footnotes => "footnotes.xml"
  | .endnotes => "endnotes.xml"
  | .theme => "theme/theme1.xml"

/-- The name of the entry of a part. -/
def path (part : OptionalPart) : String :=
  PartName.wordDirectory ++ part.target

/-- The content type of a part. -/
def contentType : OptionalPart → String
  | .numbering => ContentType.numbering
  | .settings => ContentType.settings
  | .footnotes => ContentType.footnotes
  | .endnotes => ContentType.endnotes
  | .theme => ContentType.theme

/-- The type of the relationship from the main document to a part. -/
def relationshipType : OptionalPart → String
  | .numbering => RelationshipType.numbering
  | .settings => RelationshipType.settings
  | .footnotes => RelationshipType.footnotes
  | .endnotes => RelationshipType.endnotes
  | .theme => RelationshipType.theme

@[simp] theorem mem_all (part : OptionalPart) : part ∈ all := by
  cases part <;> decide

end OptionalPart

/-- The parts that every package has and that have a content type of their own. -/
def fixedParts : List (String × String) := [
  (PartName.document, ContentType.document),
  (PartName.styles, ContentType.styles),
  (PartName.fontTable, ContentType.fontTable),
  (PartName.webSettings, ContentType.webSettings),
  (PartName.coreProperties, ContentType.coreProperties),
  (PartName.extendedProperties, ContentType.extendedProperties)]

/-- The entries that every package has, in the order of writing. -/
def fixedEntries : List String := [
  PartName.contentTypes,
  PartName.packageRelationships,
  PartName.coreProperties,
  PartName.extendedProperties,
  PartName.webSettings,
  PartName.document,
  PartName.styles,
  PartName.fontTable,
  PartName.documentRelationships,
  PartName.fontTableRelationships]

/-- The names that no embedded resource may take. -/
def reservedNames : List String :=
  fixedEntries ++ OptionalPart.all.map OptionalPart.path

end WordPackage
