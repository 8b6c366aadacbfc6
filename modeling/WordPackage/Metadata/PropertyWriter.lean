import WordPackage.Calendar
import WordPackage.Language.Table
import WordPackage.Metadata.Authors
import WordPackage.Metadata.Properties
import WordPackage.Metadata.Record
import WordPackage.Settings
import WordPackage.Text.Segments

/-!
# Metadata as properties

A metadata record is written into two property documents: core properties, which
carry the instant of writing, and extended properties about the application.
Fields that a record leaves empty set no property, except title and authors.
-/

namespace WordPackage

/-- A number of at most 32 bits, read with blanks around it and possibly a plus
sign before it. Anything else counts as zero. -/
def versionNumber (part : List Char) : Nat :=
  let trimmed := Text.trimBlanks part
  let unsigned := if trimmed.head? = some '+' then trimmed.drop 1 else trimmed
  match Text.number? unsigned with
  | some number => if number < UInt32.size then number else 0
  | none => 0

/-- A version as two numbers: the major one with at least two digits, the minor
one with at least four. -/
def applicationVersionText (version : String) : String :=
  let parts := version.toList.splitOn '.'
  let major := versionNumber (parts[0]?.getD [])
  let minor := versionNumber (parts[1]?.getD [])
  .ofList (Text.padded 2 major ++ '.' :: Text.padded 4 minor)

/-- Writes metadata records into property documents. -/
structure PropertyWriter where
  applicationName : String
  applicationVersion : String
  lastModifiedBy : String
  layout : Markup.Layout
  authors : AuthorFormatter
  languages : LanguageCanonicalizer

namespace PropertyWriter

/-- The writer of settings, with authors in serial form and the table of languages. -/
def ofSettings (settings : Settings) : PropertyWriter where
  applicationName := settings.applicationName
  applicationVersion := settings.applicationVersion
  lastModifiedBy := settings.lastModifiedBy
  layout := .ofPretty settings.prettyPrint
  authors := serialAuthors
  languages := Language.canonicalizer

/-- The properties that the fields of a record set, in the order of setting. -/
def recordProperties (writer : PropertyWriter) (record : MetadataRecord) :
    List (String × String) :=
  [("dc:title", record.title), ("dc:creator", writer.authors record.authors)]
    ++ (if record.tags.toList.isEmpty then []
        else [("cp:keywords", ", ".intercalate record.tags.toList)])
    ++ ((record.comments.filter (· ≠ "")).map fun comments =>
        ("dc:description", comments)).toList
    ++ (record.languages.head?.map fun tag =>
        ("dc:language", writer.languages.languageValue tag)).toList

/-- Set the properties of a record in a document of core properties. -/
def update (writer : PropertyWriter) (properties : Properties)
    (record : MetadataRecord) : Properties :=
  (writer.recordProperties record).foldl
    (fun updated property => updated.set property.1 property.2) properties

/-- A property that holds an instant. -/
def instantProperty (name : String) (instant : Instant) : Markup.Element :=
  (Markup.Element.withAttributes name [("xsi:type", "dcterms:W3CDTF")]).withText instant.w3cdtf

/-- The core properties of a record that is written at an instant. -/
def coreProperties (writer : PropertyWriter) (record : MetadataRecord)
    (now : Instant) : Properties :=
  let started := Properties.core
    |>.set "cp:revision" "1"
    |>.set "cp:lastModifiedBy" writer.lastModifiedBy
    |>.setElement (instantProperty "dcterms:created" now)
    |>.setElement (instantProperty "dcterms:modified" now)
  writer.update started record

/-- The extended properties of a record. -/
def extendedProperties (writer : PropertyWriter) (record : MetadataRecord) :
    Properties :=
  let application := Properties.extended
    |>.set "Application" writer.applicationName
    |>.set "AppVersion" (applicationVersionText writer.applicationVersion)
    |>.set "DocSecurity" "0"
    |>.set "HyperlinksChanged" "false"
    |>.set "LinksUpToDate" "true"
    |>.set "ScaleCrop" "false"
    |>.set "SharedDoc" "false"
  match record.publisher.filter (· ≠ "") with
  | some publisher => application.set "Company" publisher
  | none => application

/-- The two property parts of a record that is written at an instant. -/
def parts (writer : PropertyWriter) (record : MetadataRecord) (now : Instant) :
    String × String :=
  ((writer.coreProperties record now).part writer.layout,
    (writer.extendedProperties record).part writer.layout)

end PropertyWriter

end WordPackage
