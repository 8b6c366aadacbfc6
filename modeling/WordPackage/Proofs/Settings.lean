import WordPackage.Settings
import WordPackage.Proofs.Json.Record

/-!
# Settings kept as JSON

Settings are read back from their JSON object in any layout, and from every variant of it that
leaves out fields that hold their default values.
-/

namespace WordPackage

open Json

@[simp] theorem Compression.name_inj {compression other : Compression} :
    compression.name = other.name ↔ compression = other := by
  cases compression <;> cases other <;> decide

namespace Settings

theorem reads_compression (value : Compression) :
    compression.Reads (Value.text value.name).tokens value := by
  apply Decoder.reads_choice
  cases value <;> rfl

/-- What is reached of settings once the named fields are read. -/
def reached (settings : Settings) (seen : List String) : Settings where
  applicationName :=
    if "application_name" ∈ seen then settings.applicationName else ({} : Settings).applicationName
  applicationVersion :=
    if "application_version" ∈ seen then settings.applicationVersion
    else ({} : Settings).applicationVersion
  lastModifiedBy :=
    if "last_modified_by" ∈ seen then settings.lastModifiedBy else ({} : Settings).lastModifiedBy
  prettyPrint := if "pretty_print" ∈ seen then settings.prettyPrint else ({} : Settings).prettyPrint
  xmlCompression :=
    if "xml_compression" ∈ seen then settings.xmlCompression else ({} : Settings).xmlCompression
  mediaCompression :=
    if "media_compression" ∈ seen then settings.mediaCompression
    else ({} : Settings).mediaCompression

/-- Each field is read back into the settings. -/
theorem readsBack (settings : Settings) :
    List.Forall₂ (fun reader field => reader.ReadsBack settings.reached field) fields
      settings.toJson.fields := by
  refine .cons (Field.readsBack (Decoder.reads_text settings.applicationName) ?_) <|
    .cons (Field.readsBack (Decoder.reads_text settings.applicationVersion) ?_) <|
    .cons (Field.readsBack (Decoder.reads_text settings.lastModifiedBy) ?_) <|
    .cons (Field.readsBack (Decoder.reads_flag settings.prettyPrint) ?_) <|
    .cons (Field.readsBack (reads_compression settings.xmlCompression) ?_) <|
    .cons (Field.readsBack (reads_compression settings.mediaCompression) ?_) .nil
  all_goals
    intro seen
    simp [reached]

/-- The fields of settings stand for them. -/
theorem standsFor (settings : Settings) :
    StandsFor fields settings.reached settings.toJson.fields ({} : Settings).toJson.fields
      settings where
  distinct := by
    have names : settings.toJson.fields.map Prod.fst = fields.map Field.name := rfl
    rw [names]
    decide
  readsBack := settings.readsBack
  complete := by
    intro seen covered
    obtain ⟨name, version, editor, pretty, xml, media⟩ := settings
    have each : ("application_name" ∈ seen ∨ name = "docx_container") ∧
        ("application_version" ∈ seen ∨ version = "0.1.0") ∧
        ("last_modified_by" ∈ seen ∨ editor = "docx_container") ∧
        ("pretty_print" ∈ seen ∨ pretty = false) ∧
        ("xml_compression" ∈ seen ∨ xml = .deflated) ∧
        ("media_compression" ∈ seen ∨ media = .stored) := by
      simpa [toJson, Value.fields] using covered
    obtain ⟨name, version, editor, pretty, xml, media⟩ := each
    rw [reached, mk.injEq]
    exact ⟨ite_of_covered name, ite_of_covered version, ite_of_covered editor,
      ite_of_covered pretty, ite_of_covered xml, ite_of_covered media⟩

end Settings

end WordPackage
