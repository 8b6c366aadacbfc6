import WordPackage.Draft.Basic

/-!
# Parts of a draft

The text of each part that a draft would be written with now. Supplied documents
are written as they are, behind a declaration; for those not supplied there are
empty ones.
-/

namespace WordPackage.Draft

/-- The manifest of content types. -/
def contentTypesPart (draft : Draft) : String :=
  let parts := fixedParts ++ draft.optionalParts.keys.map fun part =>
    (part.path, part.contentType)
  (Declarations.forPackage parts (draft.images.paths ++ draft.fonts.paths) draft.mime).part
    draft.layout

def packageRelationshipsPart (draft : Draft) : String :=
  Registry.package.part draft.layout

/-- The core properties at an instant. -/
def corePropertiesPart (draft : Draft) (now : Instant) : String :=
  (draft.properties.coreProperties draft.metadata now).part draft.layout

def extendedPropertiesPart (draft : Draft) : String :=
  (draft.properties.extendedProperties draft.metadata).part draft.layout

/-- The web settings. -/
def webSettingsPart (draft : Draft) : String :=
  Markup.Element.document draft.layout
    { Markup.Element.withAttributes "w:webSettings" [("xmlns:w", Namespace.wordprocessing)] with
      children := [
        { name := "w:optimizeForBrowser" },
        { name := "w:allowPNG" },
        { name := "w:doNotSaveAsSingleFile" }] }

/-- A supplied document behind a declaration, or else an empty one. -/
def suppliedOr (draft : Draft) (supplied : Option String) (empty : Markup.Element) : String :=
  match supplied with
  | some text => Markup.ensureDeclaration text
  | none => empty.document draft.layout

/-- The main document. -/
def documentPart (draft : Draft) : String :=
  draft.suppliedOr draft.document
    { Markup.Element.withAttributes "w:document" [
        ("xmlns:w", Namespace.wordprocessing),
        ("xmlns:r", Namespace.officeRelationships)] with
      children := [{ name := "w:body" }] }

def stylesPart (draft : Draft) : String :=
  draft.suppliedOr draft.styles
    (.withAttributes "w:styles" [("xmlns:w", Namespace.wordprocessing)])

/-- The font table. -/
def fontTablePart (draft : Draft) : String :=
  draft.suppliedOr draft.fontTable
    (.withAttributes "w:fonts" [
      ("xmlns:w", Namespace.wordprocessing),
      ("xmlns:r", Namespace.officeRelationships)])

/-- The parts that a draft is written with at an instant, in the order of
writing. The property parts have the layout of the property writer. -/
def parts (draft : Draft) (now : Instant) : List (String × String) :=
  let properties := draft.properties.parts draft.metadata now
  [ (PartName.contentTypes, draft.contentTypesPart),
    (PartName.packageRelationships, draft.packageRelationshipsPart),
    (PartName.coreProperties, properties.1),
    (PartName.extendedProperties, properties.2),
    (PartName.webSettings, draft.webSettingsPart),
    (PartName.document, draft.documentPart),
    (PartName.styles, draft.stylesPart),
    (PartName.fontTable, draft.fontTablePart),
    (PartName.documentRelationships, draft.documentRelationships.part draft.layout),
    (PartName.fontTableRelationships, draft.fontTableRelationships.part draft.layout)]
    ++ draft.optionalParts.map fun supplied =>
        (supplied.1.path, Markup.ensureDeclaration supplied.2)

end WordPackage.Draft
