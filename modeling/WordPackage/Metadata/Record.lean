import WordPackage.Json.Record
import WordPackage.Json.Value
import WordPackage.Metadata.TagSet

/-!
# Metadata records

What is known about a document besides its content. Records are exchanged as
JSON objects in which every field may be missing.
-/

namespace WordPackage

/-- The metadata of a document. -/
structure MetadataRecord where
  title : String := ""
  authors : List String := []
  tags : TagSet := .empty
  comments : Option String := none
  languages : List String := []
  publisher : Option String := none
  deriving DecidableEq, Inhabited

namespace MetadataRecord

/-- The JSON object of a record, with all fields. -/
def toJson (record : MetadataRecord) : Json.Value :=
  .object [
    ("title", .text record.title),
    ("authors", .ofTexts record.authors),
    ("tags", .ofTexts record.tags.toList),
    ("comments", .ofOption record.comments),
    ("languages", .ofTexts record.languages),
    ("publisher", .ofOption record.publisher)]

/-- The fields of a record as they are read, in the order that arrays use. -/
def fields : List (Json.Field MetadataRecord) := [
  ⟨"title", Json.Decoder.text.map fun title record => { record with title }⟩,
  ⟨"authors", Json.Decoder.texts.map fun authors record => { record with authors }⟩,
  ⟨"tags", Json.Decoder.texts.map fun tags record => { record with tags := .ofList tags }⟩,
  ⟨"comments", Json.Decoder.optionalText.map fun comments record => { record with comments }⟩,
  ⟨"languages", Json.Decoder.texts.map fun languages record => { record with languages }⟩,
  ⟨"publisher", Json.Decoder.optionalText.map fun publisher record =>
    { record with publisher }⟩]

/-- The record that a JSON text holds. -/
def ofJson (text : String) : Except Json.Fault MetadataRecord :=
  Json.decodeRecord fields {} text

end MetadataRecord

end WordPackage
