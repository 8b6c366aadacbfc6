import WordPackage.Archive.Entry
import WordPackage.Json.Record
import WordPackage.Json.Value

/-!
# Settings

How packages are written: the fixed texts of the property parts, the layout of
generated parts and the compression of entries. Settings are kept as JSON.
-/

namespace WordPackage

/-- How a package is written. -/
structure Settings where
  applicationName : String := "docx_container"
  applicationVersion : String := "0.1.0"
  lastModifiedBy : String := "docx_container"
  prettyPrint : Bool := false
  xmlCompression : Compression := .deflated
  /-- The compression of embedded resources, which mostly are compressed already. -/
  mediaCompression : Compression := .stored
  deriving DecidableEq, Repr

namespace Settings

/-- The JSON object of settings, with all fields. -/
def toJson (settings : Settings) : Json.Value :=
  .object [
    ("application_name", .text settings.applicationName),
    ("application_version", .text settings.applicationVersion),
    ("last_modified_by", .text settings.lastModifiedBy),
    ("pretty_print", .flag settings.prettyPrint),
    ("xml_compression", .text settings.xmlCompression.name),
    ("media_compression", .text settings.mediaCompression.name)]

/-- Reads the word for a compression. -/
def compression : Json.Decoder Compression :=
  .choice [("stored", .stored), ("deflated", .deflated)]

/-- The fields of settings as they are read, in the order that arrays use. -/
def fields : List (Json.Field Settings) := [
  ⟨"application_name", Json.Decoder.text.map fun applicationName settings =>
    { settings with applicationName }⟩,
  ⟨"application_version", Json.Decoder.text.map fun applicationVersion settings =>
    { settings with applicationVersion }⟩,
  ⟨"last_modified_by", Json.Decoder.text.map fun lastModifiedBy settings =>
    { settings with lastModifiedBy }⟩,
  ⟨"pretty_print", Json.Decoder.flag.map fun prettyPrint settings =>
    { settings with prettyPrint }⟩,
  ⟨"xml_compression", compression.map fun xmlCompression settings =>
    { settings with xmlCompression }⟩,
  ⟨"media_compression", compression.map fun mediaCompression settings =>
    { settings with mediaCompression }⟩]

/-- The settings that a JSON text holds. -/
def ofJson (text : String) : Except Json.Fault Settings :=
  Json.decodeRecord fields {} text

end Settings

end WordPackage
