import WordPackage.Proofs.Draft.Archive
import WordPackage.Proofs.Metadata.Layout

/-!
# Parts as they are built and as they are written

A draft gives the text of each of eight parts on its own, and writes them together. Both
ways give the same text for six of them. The property parts are built in the layout of
the draft and written in that of its property writer, so they are the same exactly
where the two layouts are.
-/

namespace WordPackage

namespace Draft

/-- The names of the parts that the property writer makes. -/
def propertyParts : List String := [PartName.coreProperties, PartName.extendedProperties]

/-- The parts that a draft builds on their own, with their texts at an instant. -/
def builtParts (draft : Draft) (now : Instant) : List (String × String) :=
  [ (PartName.contentTypes, draft.contentTypesPart),
    (PartName.packageRelationships, draft.packageRelationshipsPart),
    (PartName.coreProperties, draft.corePropertiesPart now),
    (PartName.extendedProperties, draft.extendedPropertiesPart),
    (PartName.webSettings, draft.webSettingsPart),
    (PartName.document, draft.documentPart),
    (PartName.styles, draft.stylesPart),
    (PartName.fontTable, draft.fontTablePart) ]

variable {draft : Draft} {now : Instant}

/-- A part is planned as it is built, or it is one of the two property parts. -/
theorem mem_parts_or_property_of_mem_builtParts {part : String × String}
    (built : part ∈ draft.builtParts now) :
    (part ∈ draft.parts now ∧ part.1 ∉ propertyParts)
      ∨ part = (PartName.coreProperties, draft.corePropertiesPart now)
      ∨ part = (PartName.extendedProperties, draft.extendedPropertiesPart) := by
  have apart : ∀ name ∈ [PartName.contentTypes, PartName.packageRelationships,
      PartName.webSettings, PartName.document, PartName.styles, PartName.fontTable],
      name ∉ propertyParts := by decide
  have planned : ∀ position : Nat, ∀ {part : String × String},
      (draft.parts now)[position]? = some part → part ∈ draft.parts now :=
    fun _ => List.mem_of_getElem?
  simp only [builtParts, List.mem_cons, List.not_mem_nil, or_false] at built
  rcases built with rfl | rfl | core | extended | rfl | rfl | rfl | rfl
  · exact .inl ⟨planned 0 rfl, apart _ (by simp)⟩
  · exact .inl ⟨planned 1 rfl, apart _ (by simp)⟩
  · exact .inr (.inl core)
  · exact .inr (.inr extended)
  · exact .inl ⟨planned 4 rfl, apart _ (by simp)⟩
  · exact .inl ⟨planned 5 rfl, apart _ (by simp)⟩
  · exact .inl ⟨planned 6 rfl, apart _ (by simp)⟩
  · exact .inl ⟨planned 7 rfl, apart _ (by simp)⟩

/-- A property part that is planned in the layout of the property writer and read is the one that
is built exactly where the layouts are the same. -/
theorem IsConsistent.readText_properties_iff (consistent : draft.IsConsistent)
    {tree : Storage.Tree} {sink : Sink} {entries : List Archive.Entry}
    (succeeds : (draft.write now tree sink).result = .ok entries) {name : String}
    {properties : Properties} (inside : properties.root.HasInside)
    (planned : (name, properties.part draft.properties.layout) ∈ draft.parts now) :
    (Package.ofEntries entries).readText name = .ok (properties.part draft.layout)
      ↔ draft.properties.layout = draft.layout := by
  rw [consistent.readText_write succeeds planned, Except.ok.injEq]
  constructor
  · exact inside.document_injective
  · exact congrArg properties.part

/-- A written part is read as it is built exactly if it is no property part, or the property
writer has the layout of the draft. -/
theorem IsConsistent.readText_eq_built_iff (consistent : draft.IsConsistent)
    {tree : Storage.Tree} {sink : Sink} {entries : List Archive.Entry}
    (succeeds : (draft.write now tree sink).result = .ok entries) {part : String × String}
    (built : part ∈ draft.builtParts now) :
    (Package.ofEntries entries).readText part.1 = .ok part.2
      ↔ (part.1 ∈ propertyParts → draft.properties.layout = draft.layout) := by
  rcases mem_parts_or_property_of_mem_builtParts built with ⟨planned, other⟩ | rfl | rfl
  · rw [consistent.readText_write succeeds planned]
    exact iff_of_true rfl fun property => absurd property other
  · have core := draft.properties.hasInside_coreProperties draft.metadata now
    rw [forall_prop_of_true (List.mem_of_getElem? (i := 0) rfl)]
    exact consistent.readText_properties_iff succeeds core (List.mem_of_getElem? (i := 2) rfl)
  · have extended := draft.properties.hasInside_extendedProperties draft.metadata
    rw [forall_prop_of_true (List.mem_of_getElem? (i := 1) rfl)]
    exact consistent.readText_properties_iff succeeds extended (List.mem_of_getElem? (i := 3) rfl)

/-- Whatever operations led to a draft, each of the eight parts that it builds on their own is
written with the same text, but for the two property parts where the property writer has
another layout than the draft. -/
theorem write_stores_builtParts_iff (settings : Settings) (operations : List Operation)
    {now : Instant} {tree : Storage.Tree} {sink : Sink} {entries : List Archive.Entry}
    (succeeds : (((ofSettings settings).run operations).write now tree sink).result
      = .ok entries) :
    ∀ part ∈ ((ofSettings settings).run operations).builtParts now,
      (Package.ofEntries entries).readText part.1 = .ok part.2
        ↔ (part.1 ∈ propertyParts →
          ((ofSettings settings).run operations).properties.layout
            = .ofPretty settings.prettyPrint) := by
  intro part built
  have consistent := (IsConsistent.ofSettings settings).run operations
  rw [consistent.readText_eq_built_iff succeeds built, layout, settings_run]

/-- The property writer is made from other settings. -/
def restyled (other : Settings) : List Operation := [.usePropertyWriter (.ofSettings other)]

theorem exists_write_restyled (settings other : Settings) :
    ∃ entries, (((ofSettings settings).run (restyled other)).write
      ⟨0, 0⟩ {} .unrestricted).result = .ok entries := by
  have consistent := (IsConsistent.ofSettings settings).run (restyled other)
  apply consistent.exists_write ⟨0, 0⟩ Sink.refuses_unrestricted
  intro image member
  cases member

/-- A property writer of another application with the layout of the draft writes all parts as they
are built. -/
theorem exists_entries_store_builtParts :
    ∃ entries,
      (((ofSettings { prettyPrint := true }).run
          (restyled { applicationName := "a", prettyPrint := true })).write
          ⟨0, 0⟩ {} .unrestricted).result = .ok entries ∧
        ∀ part ∈ ((ofSettings { prettyPrint := true }).run
            (restyled { applicationName := "a", prettyPrint := true })).builtParts ⟨0, 0⟩,
          (Package.ofEntries entries).readText part.1 = .ok part.2 := by
  obtain ⟨entries, succeeds⟩ := exists_write_restyled { prettyPrint := true }
    { applicationName := "a", prettyPrint := true }
  refine ⟨entries, succeeds, ?_⟩
  intro part built
  apply (write_stores_builtParts_iff _ _ succeeds part built).2
  intro _
  rfl

/-- A property writer in the indented layout writes the extended properties of a compact draft
otherwise than the draft builds them. -/
theorem exists_readText_ne_built :
    ∃ entries,
      (((ofSettings {}).run (restyled { prettyPrint := true })).write
          ⟨0, 0⟩ {} .unrestricted).result = .ok entries ∧
        (Package.ofEntries entries).readText PartName.extendedProperties
          ≠ .ok ((ofSettings {}).run (restyled { prettyPrint := true })).extendedPropertiesPart := by
  obtain ⟨entries, succeeds⟩ := exists_write_restyled {} { prettyPrint := true }
  have consistent := (IsConsistent.ofSettings {}).run (restyled { prettyPrint := true })
  refine ⟨entries, succeeds, ?_⟩
  intro same
  have layouts := (consistent.readText_eq_built_iff succeeds
    (List.mem_of_getElem? (i := 3) rfl)).1 same (List.mem_of_getElem? (i := 1) rfl)
  cases layouts

end Draft

end WordPackage
