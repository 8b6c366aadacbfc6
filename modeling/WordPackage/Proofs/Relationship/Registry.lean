import Mathlib.Data.List.Basic
import Mathlib.Data.List.Induction
import Std.Data.String.ToNat
import WordPackage.Relationship.Registry

/-!
# Growth of registries

Registering only appends. Identifiers are numbered, so those of one registry are
distinct, whatever was registered. A new registry lists the keys that were passed, each
once, in the order of first passing, and no identifier that was given ever changes.
-/

namespace WordPackage

/-- The key of a listed relationship. -/
def Relationship.key (relationship : Relationship) : RelationshipKey :=
  { target := relationship.target, kind := relationship.kind, mode := relationship.mode }

namespace Registry

variable {registry : Registry} {key other : RelationshipKey} {id : String}

/-- The keys after a registration are the earlier ones and the new one. -/
theorem mem_keys_register_iff :
    other ∈ (registry.register key).keys ↔ other = key ∨ other ∈ registry.keys := by
  by_cases known : key ∈ registry.keys
  · rw [register_of_mem known]
    constructor
    · exact .inr
    · rintro (rfl | member)
      · exact known
      · exact member
  · simp [register, known, or_comm]

theorem mem_keys_register_of_mem (member : other ∈ registry.keys) :
    other ∈ (registry.register key).keys :=
  mem_keys_register_iff.2 (.inr member)

theorem keys_prefix_register (registry : Registry) (key : RelationshipKey) :
    registry.keys <+: (registry.register key).keys := by
  by_cases known : key ∈ registry.keys
  · simp only [register_of_mem known, List.prefix_rfl]
  · simp only [register, known, if_false, List.prefix_append]

theorem identifier_injective : Function.Injective identifier := by
  intro left right same
  have digits := congrArg String.toList same
  rw [identifier, identifier, String.toList_append, String.toList_append,
    List.append_cancel_left_eq, String.toList_inj] at digits
  exact Nat.repr_injective digits

theorem map_fst_entries (registry : Registry) :
    registry.entries.map Prod.fst
      = (List.range registry.keys.length).map fun position => identifier (position + 1) := by
  rw [entries, List.range_eq_range', ← List.zipIdx_map_snd 0 registry.keys, List.map_map,
    List.map_map]
  rfl

theorem map_snd_entries (registry : Registry) : registry.entries.map Prod.snd = registry.keys := by
  rw [entries, List.map_map]
  exact List.zipIdx_map_fst 0 registry.keys

theorem nodup_identifiers (registry : Registry) : (registry.entries.map Prod.fst).Nodup := by
  rw [map_fst_entries, List.Nodup, List.pairwise_map]
  refine List.nodup_range.imp ?_
  intro left right apart same
  exact apart (Nat.succ.inj (identifier_injective same))

theorem get?_eq_some_iff :
    registry.get? key = some id
      ↔ key ∈ registry.keys ∧ identifier (registry.keys.idxOf key + 1) = id := by
  by_cases known : key ∈ registry.keys <;> simp [get?, known]

theorem get?_injective (left : registry.get? key = some id)
    (right : registry.get? other = some id) : key = other := by
  obtain ⟨known, here⟩ := get?_eq_some_iff.1 left
  obtain ⟨-, there⟩ := get?_eq_some_iff.1 right
  have places : registry.keys.idxOf key = registry.keys.idxOf other :=
    Nat.succ.inj (identifier_injective (here.trans there.symm))
  exact (List.idxOf_inj known).1 places

@[simp] theorem length_relationships (registry : Registry) :
    registry.relationships.length = registry.keys.length := by
  simp [relationships, entries]

theorem getElem_relationships {position : Nat}
    (listed : position < registry.relationships.length) :
    registry.relationships[position].id = identifier (position + 1)
      ∧ registry.keys[position]? = some registry.relationships[position].key := by
  rw [length_relationships] at listed
  simp [relationships, entries, Relationship.key, listed]

theorem map_key_relationships (registry : Registry) :
    registry.relationships.map Relationship.key = registry.keys := by
  rw [relationships, List.map_map]
  exact registry.map_snd_entries

/-- A key is found with the identifier that it is listed with, and nothing else is found. -/
theorem get?_eq_some_iff_exists_mem (distinct : registry.keys.Nodup) :
    registry.get? key = some id
      ↔ ∃ relationship ∈ registry.relationships,
        relationship.key = key ∧ relationship.id = id := by
  rw [get?_eq_some_iff]
  constructor
  · rintro ⟨known, rfl⟩
    have place : registry.keys.idxOf key < registry.relationships.length := by
      rw [length_relationships]
      exact List.idxOf_lt_length_of_mem known
    obtain ⟨number, here⟩ := getElem_relationships place
    rw [List.getElem?_idxOf known, Option.some.injEq] at here
    exact ⟨_, List.getElem_mem place, here.symm, number⟩
  · rintro ⟨relationship, member, rfl, rfl⟩
    obtain ⟨position, listed, rfl⟩ := List.getElem_of_mem member
    obtain ⟨number, here⟩ := getElem_relationships listed
    obtain ⟨bound, here⟩ := List.getElem?_eq_some_iff.1 here
    rw [number, ← here, distinct.idxOf_getElem]
    exact ⟨List.getElem_mem bound, rfl⟩

/-- Registering keeps the keys distinct. -/
theorem nodup_keys_register (distinct : registry.keys.Nodup) (key : RelationshipKey) :
    (registry.register key).keys.Nodup := by
  by_cases known : key ∈ registry.keys
  · rw [register_of_mem known]
    exact distinct
  · rw [register, if_neg known, List.nodup_append]
    refine ⟨distinct, by simp, ?_⟩
    intro earlier member last here same
    rw [List.mem_singleton] at here
    exact known (here ▸ same ▸ member)

theorem keys_prefix_registerAll (registry : Registry) (keys : List RelationshipKey) :
    registry.keys <+: (registry.registerAll keys).keys := by
  induction keys generalizing registry with
  | nil => exact List.prefix_rfl
  | cons key later ih => exact (registry.keys_prefix_register key).trans (ih _)

theorem registerAll_append (registry : Registry) (earlier later : List RelationshipKey) :
    registry.registerAll (earlier ++ later) = (registry.registerAll earlier).registerAll later :=
  List.foldl_append

theorem keys_registerAll_prefix (registry : Registry) (earlier later : List RelationshipKey) :
    (registry.registerAll earlier).keys <+: (registry.registerAll (earlier ++ later)).keys := by
  rw [registerAll_append]
  exact keys_prefix_registerAll _ later

/-- The relationships of one registry are listed in front of those of another whose keys
begin with the same ones. -/
theorem relationships_prefix {later : Registry} (keys : registry.keys <+: later.keys) :
    registry.relationships <+: later.relationships := by
  obtain ⟨new, same⟩ := keys
  rw [relationships, relationships, entries, entries, ← same, List.zipIdx_append,
    List.map_append, List.map_append]
  exact List.prefix_append _ _

/-- The keys of a new registry are those that were passed, each once, in the order of first
passing. -/
theorem keys_registerAll_empty (passed : List RelationshipKey) :
    (empty.registerAll passed).keys = passed.eraseDups := by
  induction passed using List.reverseRecOn with
  | nil => rfl
  | append_singleton earlier key ih =>
      have known : key ∈ (empty.registerAll earlier).keys ↔ key ∈ earlier := by
        rw [ih, List.mem_eraseDups]
      have last : (empty.registerAll (earlier ++ [key])).keys
          = ((empty.registerAll earlier).register key).keys := by
        rw [registerAll_append]
        rfl
      rw [last, List.eraseDups_append, ← ih]
      by_cases member : key ∈ earlier
      · rw [register_of_mem (known.2 member)]
        simp [List.removeAll, member]
      · rw [register, if_neg (mt known.1 member)]
        simp [List.removeAll, List.eraseDups_cons, member]

end Registry

end WordPackage
