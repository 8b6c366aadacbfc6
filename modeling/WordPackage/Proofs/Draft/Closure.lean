import WordPackage.Proofs.ContentType.Declarations
import WordPackage.Proofs.Draft.Writing

/-!
# Closed drafts

A draft is closed when every internal relationship of its main document and of
its font table leads to an entry that it would be written with. Operations keep a
draft closed as long as those that register a relationship themselves register
external ones only.
-/

namespace WordPackage

/-- Whether an operation registers no internal relationship itself and looks content types up
in a table. -/
def Operation.IsOrdinary : Operation → Prop
  | .relateDocument key => key.mode = .external
  | .relateFontTable key => key.mode = .external
  | .useMimeLookup mime => ∃ table : MimeTable, mime = table.lookup
  | _ => True

/-- Whether every internal relationship of a registry has a proper target below the
word-processing directory that is among the given names. -/
def Registry.LeadsInto (registry : Registry) (names : List String) : Prop :=
  ∀ key ∈ registry.keys, key.mode = .internal →
    (⟨key.target⟩ : ResourceTarget).IsProper ∧ (⟨key.target⟩ : ResourceTarget).path ∈ names

namespace Registry.LeadsInto

variable {registry : Registry} {names : List String}

theorem mono (leads : registry.LeadsInto names) {more : List String}
    (included : ∀ name ∈ names, name ∈ more) : registry.LeadsInto more := by
  intro key member internal
  obtain ⟨proper, known⟩ := leads key member internal
  exact ⟨proper, included _ known⟩

theorem register (leads : registry.LeadsInto names) {key : RelationshipKey}
    (fits : key.mode = .internal →
      (⟨key.target⟩ : ResourceTarget).IsProper ∧ (⟨key.target⟩ : ResourceTarget).path ∈ names) :
    (registry.register key).LeadsInto names := by
  intro other member internal
  rcases Registry.mem_keys_register_iff.1 member with rfl | earlier
  · exact fits internal
  · exact leads other earlier internal

theorem register_external (leads : registry.LeadsInto names) {key : RelationshipKey}
    (external : key.mode = .external) : (registry.register key).LeadsInto names := by
  apply leads.register
  intro internal
  rw [external] at internal
  cases internal

end Registry.LeadsInto

namespace Draft

variable {draft : Draft}

theorem mem_entryNames_iff {name : String} :
    name ∈ draft.entryNames ↔
      name ∈ fixedEntries ∨ (∃ part ∈ draft.optionalParts.keys, part.path = name) ∨
        name ∈ draft.images.paths ∨ name ∈ draft.fonts.paths := by
  rw [entryNames, List.mem_append, List.mem_append, List.mem_append, List.mem_map]

/-- No operation takes a name away. -/
theorem IsConsistent.mem_entryNames_perform (consistent : draft.IsConsistent)
    (operation : Operation) {name : String} (member : name ∈ draft.entryNames) :
    name ∈ (draft.perform operation).entryNames := by
  rw [mem_entryNames_iff] at member ⊢
  -- Only three kinds of operations change which entries there are, and these add some.
  cases operation with
  | setDocument _ | setStyles _ | setFontTable _ | setMetadata _ | useMimeLookup _
  | usePropertyWriter _ | relateDocument _ | relateFontTable _ => exact member
  | setOptionalPart part text =>
      rcases member with fixed | ⟨other, supplied, path⟩ | resource
      · exact .inl fixed
      · exact .inr (.inl ⟨other, Assignments.mem_keys_set.2 (.inr supplied), path⟩)
      · exact .inr (.inr resource)
  | addImage target source =>
      rcases draft.perform_addImage target source with ⟨_, -, -, -, next, -⟩ | ⟨next, -⟩
      · rw [next]
        rcases member with fixed | supplied | image | font
        · exact .inl fixed
        · exact .inr (.inl supplied)
        · exact .inr (.inr (.inl (consistent.images.aligned.mem_paths_insert.2 (.inr image))))
        · exact .inr (.inr (.inr font))
      · rw [next]
        exact member
  | addFont target data =>
      rcases draft.perform_addFont target data with ⟨_, -, -, -, next, -⟩ | ⟨next, -⟩
      · rw [next]
        rcases member with fixed | supplied | image | font
        · exact .inl fixed
        · exact .inr (.inl supplied)
        · exact .inr (.inr (.inl image))
        · exact .inr (.inr (.inr (consistent.fonts.aligned.mem_paths_insert.2 (.inr font))))
      · rw [next]
        exact member

/-- Whether internal relationships lead to entries, and content types are looked up whatever
the ASCII case. -/
structure IsClosed (draft : Draft) : Prop where
  consistent : draft.IsConsistent
  document : draft.documentRelationships.LeadsInto draft.entryNames
  fontTable : draft.fontTableRelationships.LeadsInto draft.entryNames
  caseless : MimeLookup.IsCaseless draft.mime

namespace IsClosed

/-- A draft to which nothing was added is closed. -/
theorem ofSettings (settings : Settings) : (ofSettings settings).IsClosed where
  consistent := .ofSettings settings
  document := by
    have own : ∀ key ∈ Registry.document.keys, (⟨key.target⟩ : ResourceTarget).IsProper ∧
        (⟨key.target⟩ : ResourceTarget).path ∈ fixedEntries := by decide
    intro key member _
    obtain ⟨proper, fixed⟩ := own key member
    exact ⟨proper, mem_entryNames_iff.2 (.inl fixed)⟩
  fontTable := fun _ member => nomatch member
  caseless := MimeTable.isCaseless_lookup {}

theorem leadsInto_perform (closed : draft.IsClosed) (operation : Operation) {registry : Registry}
    (leads : registry.LeadsInto draft.entryNames) :
    registry.LeadsInto (draft.perform operation).entryNames :=
  leads.mono fun _ member => closed.consistent.mem_entryNames_perform operation member

/-- An optional part leads to its own entry. -/
theorem setOptionalPart (closed : draft.IsClosed) (part : OptionalPart) (text : String) :
    (draft.perform (.setOptionalPart part text)).IsClosed := by
  have proper : ∀ part ∈ OptionalPart.all, (⟨part.target⟩ : ResourceTarget).IsProper := by
    decide
  refine ⟨closed.consistent.perform _, ?_, closed.leadsInto_perform _ closed.fontTable,
    closed.caseless⟩
  apply (closed.leadsInto_perform (.setOptionalPart part text) closed.document).register
  intro _
  refine ⟨proper part (OptionalPart.mem_all part), mem_entryNames_iff.2 ?_⟩
  exact .inr (.inl ⟨part, Assignments.mem_keys_set.2 (.inl rfl), rfl⟩)

/-- An accepted image leads to its own entry. -/
theorem addImage (closed : draft.IsClosed) (target : String) (source : ResourceSource) :
    (draft.perform (.addImage target source)).IsClosed := by
  have document := closed.leadsInto_perform (.addImage target source) closed.document
  have fontTable := closed.leadsInto_perform (.addImage target source) closed.fontTable
  have consistent := closed.consistent.perform (.addImage target source)
  rcases draft.perform_addImage target source with ⟨resource, proper, -, -, next, -⟩ | ⟨next, -⟩
  · rw [next] at document fontTable consistent ⊢
    refine ⟨consistent, document.register fun _ => ⟨proper, ?_⟩, fontTable, closed.caseless⟩
    exact mem_entryNames_iff.2 (.inr (.inr (.inl
      (closed.consistent.images.aligned.mem_paths_insert.2 (.inl rfl)))))
  · rw [next]
    exact closed

/-- An accepted font leads to its own entry. -/
theorem addFont (closed : draft.IsClosed) (target : String) (data : ByteArray) :
    (draft.perform (.addFont target data)).IsClosed := by
  have document := closed.leadsInto_perform (.addFont target data) closed.document
  have fontTable := closed.leadsInto_perform (.addFont target data) closed.fontTable
  have consistent := closed.consistent.perform (.addFont target data)
  rcases draft.perform_addFont target data with ⟨resource, proper, -, -, next, -⟩ | ⟨next, -⟩
  · rw [next] at document fontTable consistent ⊢
    refine ⟨consistent, document, fontTable.register fun _ => ⟨proper, ?_⟩, closed.caseless⟩
    exact mem_entryNames_iff.2 (.inr (.inr (.inr
      (closed.consistent.fonts.aligned.mem_paths_insert.2 (.inl rfl)))))
  · rw [next]
    exact closed

/-- An ordinary operation keeps a draft closed. -/
theorem perform (closed : draft.IsClosed) {operation : Operation}
    (ordinary : operation.IsOrdinary) : (draft.perform operation).IsClosed := by
  have consistent := closed.consistent.perform operation
  cases operation with
  | setDocument _ | setStyles _ | setFontTable _ | setMetadata _ | usePropertyWriter _ =>
      exact ⟨consistent, closed.document, closed.fontTable, closed.caseless⟩
  | useMimeLookup mime =>
      obtain ⟨table, rfl⟩ := ordinary
      exact ⟨consistent, closed.document, closed.fontTable, table.isCaseless_lookup⟩
  | setOptionalPart part text => exact closed.setOptionalPart part text
  | addImage target source => exact closed.addImage target source
  | addFont target data => exact closed.addFont target data
  | relateDocument key =>
      exact ⟨consistent, closed.document.register_external ordinary, closed.fontTable,
        closed.caseless⟩
  | relateFontTable key =>
      exact ⟨consistent, closed.document, closed.fontTable.register_external ordinary,
        closed.caseless⟩

theorem run (closed : draft.IsClosed) {operations : List Operation}
    (ordinary : ∀ operation ∈ operations, operation.IsOrdinary) :
    (draft.run operations).IsClosed :=
  holds_run IsClosed (fun _ operation member closed =>
    closed.perform (ordinary operation member)) closed

end IsClosed

end Draft

end WordPackage
