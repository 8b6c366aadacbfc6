import WordPackage.Proofs.Draft.Run
import WordPackage.Proofs.Relationship.Registry

/-!
# Consistency of drafts

The names that a draft would be written under are distinct, and what it embeds
or was supplied with is registered with the part that refers to it. Every
operation keeps this, accepted or not, so it holds after every run.
-/

namespace WordPackage

/-- Whether a store holds each of its resources once, under the path of a proper target that
names no part and is registered with the given type. -/
structure ResourceStore.IsRelated {α : Type} (store : ResourceStore α) (kind : String)
    (registry : Registry) : Prop where
  aligned : store.Aligned
  distinct : store.paths.Nodup
  related : ∀ path ∈ store.paths, ∃ resource : ResourceTarget,
    path = resource.path ∧ resource.IsProper ∧ resource.path ∉ reservedNames ∧
      resource.key kind ∈ registry.keys

namespace ResourceStore.IsRelated

variable {α : Type} {store : ResourceStore α} {kind : String} {registry : Registry}

theorem empty : (ResourceStore.empty : ResourceStore α).IsRelated kind registry where
  aligned := aligned_empty
  distinct := List.nodup_nil
  related := fun _ member => nomatch member

theorem register (related : store.IsRelated kind registry) (key : RelationshipKey) :
    store.IsRelated kind (registry.register key) where
  aligned := related.aligned
  distinct := related.distinct
  related := by
    intro path member
    obtain ⟨resource, same, proper, free, known⟩ := related.related path member
    exact ⟨resource, same, proper, free, Registry.mem_keys_register_of_mem known⟩

/-- A resource that is stored and registered at once is related. -/
theorem insert (related : store.IsRelated kind registry) {resource : ResourceTarget}
    (proper : resource.IsProper) (free : resource.path ∉ reservedNames) (payload : α) :
    (store.insert resource.path payload).IsRelated kind
      (registry.register (resource.key kind)) where
  aligned := related.aligned.insert _ _
  distinct := (related.aligned.insert _ _).nodup_paths
  related := by
    intro path member
    rcases related.aligned.mem_paths_insert.1 member with rfl | earlier
    · exact ⟨resource, rfl, proper, free, Registry.mem_keys_register _ _⟩
    · exact (related.register _).related path earlier

theorem notMem_reservedNames (related : store.IsRelated kind registry) {path : String}
    (member : path ∈ store.paths) : path ∉ reservedNames := by
  obtain ⟨resource, rfl, -, free, -⟩ := related.related path member
  exact free

end ResourceStore.IsRelated

namespace Draft

/-- What holds of every draft. -/
structure IsConsistent (draft : Draft) : Prop where
  images : draft.images.IsRelated RelationshipType.image draft.documentRelationships
  fonts : draft.fonts.IsRelated RelationshipType.font draft.fontTableRelationships
  apart : ∀ path ∈ draft.images.paths, path ∉ draft.fonts.paths
  parts_distinct : draft.optionalParts.keys.Nodup
  parts_related : ∀ part ∈ draft.optionalParts.keys,
    optionalKey part ∈ draft.documentRelationships.keys
  first : Registry.document.keys <+: draft.documentRelationships.keys

namespace IsConsistent

variable {draft : Draft}

theorem ofSettings (settings : Settings) : (ofSettings settings).IsConsistent where
  images := .empty
  fonts := .empty
  apart := fun _ member => nomatch member
  parts_distinct := List.nodup_nil
  parts_related := fun _ member => nomatch member
  first := List.prefix_rfl

/-- A relationship of the main document may be registered. -/
theorem relateDocument (consistent : draft.IsConsistent) (key : RelationshipKey) :
    IsConsistent
      { draft with documentRelationships := draft.documentRelationships.register key } where
  images := consistent.images.register key
  fonts := consistent.fonts
  apart := consistent.apart
  parts_distinct := consistent.parts_distinct
  parts_related := fun part member =>
    Registry.mem_keys_register_of_mem (consistent.parts_related part member)
  first := consistent.first.trans (Registry.keys_prefix_register _ _)

/-- An optional part may be supplied, for the first time or again. -/
theorem setOptionalPart (consistent : draft.IsConsistent) (part : OptionalPart) (text : String) :
    (draft.setOptionalPart part text).2.IsConsistent where
  images := consistent.images.register _
  fonts := consistent.fonts
  apart := consistent.apart
  parts_distinct := Assignments.nodup_keys_set consistent.parts_distinct part text
  parts_related := by
    intro other member
    rcases Assignments.mem_keys_set.1 member with rfl | earlier
    · exact Registry.mem_keys_register _ _
    · exact Registry.mem_keys_register_of_mem (consistent.parts_related other earlier)
  first := consistent.first.trans (Registry.keys_prefix_register _ _)

/-- An image may be embedded under a path that no part and no font has. -/
theorem embedImage (consistent : draft.IsConsistent) {resource : ResourceTarget}
    (proper : resource.IsProper) (free : resource.path ∉ reservedNames)
    (noFont : draft.fonts.contains resource.path = false) (source : ResourceSource) :
    (draft.embedImage resource source).IsConsistent := by
  have absent : resource.path ∉ draft.fonts.paths := by
    rw [← consistent.fonts.aligned.contains_iff, noFont]
    exact Bool.false_ne_true
  constructor
  · exact consistent.images.insert proper free source
  · exact consistent.fonts
  · intro path member
    rcases consistent.images.aligned.mem_paths_insert.1 member with rfl | earlier
    · exact absent
    · exact consistent.apart path earlier
  · exact consistent.parts_distinct
  · intro part member
    exact Registry.mem_keys_register_of_mem (consistent.parts_related part member)
  · exact consistent.first.trans (Registry.keys_prefix_register _ _)

/-- A font may be embedded under a path that no part and no image has. -/
theorem embedFont (consistent : draft.IsConsistent) {resource : ResourceTarget}
    (proper : resource.IsProper) (free : resource.path ∉ reservedNames)
    (noImage : draft.images.contains resource.path = false) (data : ByteArray) :
    (draft.embedFont resource data).IsConsistent := by
  have absent : resource.path ∉ draft.images.paths := by
    rw [← consistent.images.aligned.contains_iff, noImage]
    exact Bool.false_ne_true
  constructor
  · exact consistent.images
  · exact consistent.fonts.insert proper free data
  · intro path member taken
    rcases consistent.fonts.aligned.mem_paths_insert.1 taken with rfl | earlier
    · exact absent member
    · exact consistent.apart path member earlier
  · exact consistent.parts_distinct
  · exact consistent.parts_related
  · exact consistent.first

/-- Every operation keeps a draft consistent, whether it is accepted or not. -/
theorem perform (consistent : draft.IsConsistent) (operation : Operation) :
    (draft.perform operation).IsConsistent := by
  cases operation with
  | setDocument _ | setStyles _ | setFontTable _ | setMetadata _ | useMimeLookup _
  | usePropertyWriter _ =>
      exact ⟨consistent.images, consistent.fonts, consistent.apart, consistent.parts_distinct,
        consistent.parts_related, consistent.first⟩
  | setOptionalPart part text => exact consistent.setOptionalPart part text
  | addImage target source =>
      rcases draft.perform_addImage target source with
        ⟨resource, proper, free, noFont, next, -⟩ | ⟨next, -⟩
      · exact next ▸ consistent.embedImage proper free noFont source
      · exact next.symm ▸ consistent
  | addFont target data =>
      rcases draft.perform_addFont target data with
        ⟨resource, proper, free, noImage, next, -⟩ | ⟨next, -⟩
      · exact next ▸ consistent.embedFont proper free noImage data
      · exact next.symm ▸ consistent
  | relateDocument key => exact consistent.relateDocument key
  | relateFontTable key =>
      exact ⟨consistent.images, consistent.fonts.register key, consistent.apart,
        consistent.parts_distinct, consistent.parts_related, consistent.first⟩

theorem run (consistent : draft.IsConsistent) (operations : List Operation) :
    (draft.run operations).IsConsistent :=
  holds_run IsConsistent (fun _ operation _ holds => holds.perform operation) consistent

/-- The first three identifiers of a consistent draft are those of its styles, its web settings
and its font table. -/
theorem take_entries (consistent : draft.IsConsistent) :
    draft.documentRelationships.entries.take 3 = [
      ("rId1", { target := "styles.xml", kind := RelationshipType.styles }),
      ("rId2", { target := "webSettings.xml", kind := RelationshipType.webSettings }),
      ("rId3", { target := "fontTable.xml", kind := RelationshipType.fontTable })] := by
  obtain ⟨later, keys⟩ := consistent.first
  rw [Registry.entries, ← keys, List.zipIdx_append, List.map_append, List.take_append_of_le_length]
  · decide
  · decide

end IsConsistent

/-- After every run the draft is consistent, it holds every optional part that was supplied, and
the main document still has its three own relationships under their identifiers. -/
theorem run_isConsistent (settings : Settings) (operations : List Operation) :
    ((ofSettings settings).run operations).IsConsistent ∧
      (∀ part text, .setOptionalPart part text ∈ operations →
        part ∈ ((ofSettings settings).run operations).optionalParts.keys) ∧
      ((ofSettings settings).run operations).documentRelationships.entries.take 3 = [
        ("rId1", { target := "styles.xml", kind := RelationshipType.styles }),
        ("rId2", { target := "webSettings.xml", kind := RelationshipType.webSettings }),
        ("rId3", { target := "fontTable.xml", kind := RelationshipType.fontTable })] := by
  have consistent := (IsConsistent.ofSettings settings).run operations
  refine ⟨consistent, ?_, consistent.take_entries⟩
  intro part text supplied
  exact mem_keys_optionalParts_run supplied

end Draft

end WordPackage
