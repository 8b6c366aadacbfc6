import WordPackage.Metadata.Record
import WordPackage.Proofs.Json.Record
import WordPackage.Proofs.Metadata.TagSet

/-!
# Records kept as JSON

A record is read back from its JSON object, and from every object that differs from it only in the
order of the fields, in fields left out that hold their default values, in blanks and in fields
that records do not have.
-/

namespace WordPackage

open Json

namespace MetadataRecord

/-- What is reached of a record once the named fields are read. -/
def reached (record : MetadataRecord) (seen : List String) : MetadataRecord where
  title := if "title" ∈ seen then record.title else ({} : MetadataRecord).title
  authors := if "authors" ∈ seen then record.authors else ({} : MetadataRecord).authors
  tags := if "tags" ∈ seen then record.tags else ({} : MetadataRecord).tags
  comments := if "comments" ∈ seen then record.comments else ({} : MetadataRecord).comments
  languages := if "languages" ∈ seen then record.languages else ({} : MetadataRecord).languages
  publisher := if "publisher" ∈ seen then record.publisher else ({} : MetadataRecord).publisher

/-- Each field is read back into the record. -/
theorem readsBack (record : MetadataRecord) :
    List.Forall₂ (fun reader field => reader.ReadsBack record.reached field) fields
      record.toJson.fields := by
  refine .cons (Field.readsBack (Decoder.reads_text record.title) ?_) <|
    .cons (Field.readsBack (Decoder.reads_texts record.authors) ?_) <|
    .cons (Field.readsBack (Decoder.reads_texts record.tags.toList) ?_) <|
    .cons (Field.readsBack (Decoder.reads_optionalText record.comments) ?_) <|
    .cons (Field.readsBack (Decoder.reads_texts record.languages) ?_) <|
    .cons (Field.readsBack (Decoder.reads_optionalText record.publisher) ?_) .nil
  all_goals
    intro seen
    simp [reached, TagSet.ofList_toList]

/-- The fields of a record stand for it. -/
theorem standsFor (record : MetadataRecord) :
    StandsFor fields record.reached record.toJson.fields ({} : MetadataRecord).toJson.fields
      record where
  distinct := by
    have names : record.toJson.fields.map Prod.fst = fields.map Field.name := rfl
    rw [names]
    decide
  readsBack := record.readsBack
  complete := by
    intro seen covered
    obtain ⟨title, authors, tags, comments, languages, publisher⟩ := record
    have each : ("title" ∈ seen ∨ title = "") ∧ ("authors" ∈ seen ∨ authors = []) ∧
        ("tags" ∈ seen ∨ tags = .empty) ∧ ("comments" ∈ seen ∨ comments = none) ∧
        ("languages" ∈ seen ∨ languages = []) ∧ ("publisher" ∈ seen ∨ publisher = none) := by
      simpa [toJson, Value.fields] using covered
    obtain ⟨title, authors, tags, comments, languages, publisher⟩ := each
    rw [reached, mk.injEq]
    exact ⟨ite_of_covered title, ite_of_covered authors, ite_of_covered tags,
      ite_of_covered comments, ite_of_covered languages, ite_of_covered publisher⟩

end MetadataRecord

end WordPackage
