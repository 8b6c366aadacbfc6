import Mathlib.Data.List.Nodup
import WordPackage.Proofs.Relationship.Registry
import WordPackage.Relationship.Table

/-!
# Numbering over whole runs

A table represents a registry: the map finds what the registry counts out, as far as the counter
of the table reaches, and the counter stands behind the last number. Registering keeps this in
every case. The counter has 32 bits and starts at one, and it is moved on after the last key too,
so that identifiers are given twice once it has started over.

Until then, after every run from one of the three tables that a part starts with, the distinct
keys that were passed are listed in the order of first passing and numbered from one, every answer
is what the key is found with from then on, and registering the same keys again changes nothing.
-/

namespace WordPackage

namespace RelationshipTable

/-- The number of keys after which the counter holds its largest value. -/
def capacity : Nat := UInt32.size - 2

/-- A table holds the keys of a registry with their identifiers, numbered with 32 bits. -/
structure Represents (table : RelationshipTable) (registry : Registry) : Prop where
  order : table.order.toList = registry.keys
  ids : ∀ key, table.get? key = if key ∈ registry.keys then
    some (Registry.identifier ((registry.keys.idxOf key + 1) % UInt32.size)) else none
  next : table.next.toNat = (registry.keys.length + 1) % UInt32.size
  distinct : registry.keys.Nodup

/-- A key is found with the identifier that registering it answered. -/
theorem get?_add (table : RelationshipTable) (key : RelationshipKey) :
    (table.add key).2.get? key = some (table.add key).1 := by
  cases found : table.ids[key]? with
  | some id =>
      rw [add_of_some found]
      exact found
  | none =>
      rw [add_of_none found]
      exact Std.HashMap.getElem?_insert_self

theorem get?_add_of_ne {key other : RelationshipKey} (table : RelationshipTable)
    (apart : other ≠ key) : (table.add key).2.get? other = table.get? other := by
  cases found : table.ids[key]? with
  | some id => rw [add_of_some found]
  | none =>
      rw [add_of_none found, get?, Std.HashMap.getElem?_insert]
      simp [Ne.symm apart, get?]

theorem get?_add_of_isSome {other : RelationshipKey} {table : RelationshipTable}
    (known : (table.get? other).isSome) (key : RelationshipKey) :
    (table.add key).2.get? other = table.get? other := by
  by_cases same : other = key
  · obtain ⟨id, found⟩ := Option.isSome_iff_exists.1 known
    rw [add_of_some (same ▸ found)]
  · exact table.get?_add_of_ne same

namespace Represents

variable {table : RelationshipTable} {registry : Registry}

theorem empty : RelationshipTable.empty.Represents Registry.empty where
  order := rfl
  ids := by
    intro key
    simp [RelationshipTable.get?, RelationshipTable.empty, Registry.empty]
  next := rfl
  distinct := List.nodup_nil

/-- Registering a key keeps table and registry together, also where the counter starts over. -/
theorem add (represents : table.Represents registry) (key : RelationshipKey) :
    (table.add key).2.Represents (registry.register key) := by
  have found := represents.ids key
  by_cases known : key ∈ registry.keys
  · rw [if_pos known] at found
    rw [add_of_some found, Registry.register_of_mem known]
    exact represents
  · rw [if_neg known] at found
    have keys : (registry.register key).keys = registry.keys ++ [key] := by
      rw [Registry.register, if_neg known]
    refine ⟨?_, ?_, ?_, Registry.nodup_keys_register represents.distinct key⟩
    · rw [add_of_none found, Array.toList_push, represents.order, keys]
    · intro other
      by_cases same : other = key
      · rw [same, get?_add, add_of_none found, if_pos (registry.mem_keys_register key), keys,
          represents.next, List.idxOf_append_of_notMem known, List.idxOf_cons_self, Nat.add_zero]
      · have still : other ∈ (registry.register key).keys ↔ other ∈ registry.keys := by
          rw [Registry.mem_keys_register_iff, or_iff_right same]
        rw [table.get?_add_of_ne same, represents.ids other]
        simp only [still]
        refine ite_congr rfl (fun member => ?_) (fun _ => rfl)
        rw [keys, List.idxOf_append_of_mem member]
    · rw [add_of_none found, keys, List.length_append, List.length_singleton, UInt32.toNat_add,
        represents.next, UInt32.toNat_one]
      exact Nat.mod_add_mod _ _ _

theorem addAll (represents : table.Represents registry) (keys : List RelationshipKey) :
    (keys.foldl (fun table key => (table.add key).2) table).Represents
      (registry.registerAll keys) := by
  induction keys generalizing table registry with
  | nil => exact represents
  | cons key later ih => exact ih (represents.add key)

/-- Both have the same number of keys. -/
theorem size_eq (represents : table.Represents registry) :
    table.size = registry.keys.length := by
  rw [RelationshipTable.size, ← Array.length_toList, represents.order]

theorem isSome_get?_iff (represents : table.Represents registry) {key : RelationshipKey} :
    (table.get? key).isSome ↔ key ∈ registry.keys := by
  rw [represents.ids]
  by_cases known : key ∈ registry.keys <;> simp [known]

section

variable (represents : table.Represents registry) (room : registry.keys.length ≤ capacity)

include represents room

/-- The map finds what the registry counts out while the counter has not started over. -/
theorem get?_eq (key : RelationshipKey) : table.get? key = registry.get? key := by
  rw [represents.ids, Registry.get?]
  refine ite_congr rfl (fun known => ?_) (fun _ => rfl)
  have place := List.idxOf_lt_length_of_mem known
  rw [capacity, UInt32.size] at room
  rw [Nat.mod_eq_of_lt]
  rw [UInt32.size]
  omega

/-- Both list the same identifiers with the same keys: the map passes over none. -/
theorem entries : table.entries = registry.entries := by
  have counted : table.entries
      = registry.keys.map fun key => (Registry.identifier (registry.keys.idxOf key + 1), key) := by
    rw [RelationshipTable.entries, represents.order, List.filterMap_eq_map_iff_forall_eq_some]
    intro key known
    rw [← RelationshipTable.get?, represents.get?_eq room key, Registry.get?, if_pos known]
    rfl
  rw [counted, Registry.entries]
  apply List.ext_getElem
  · rw [List.length_map, List.length_map, List.length_zipIdx]
  · intro position left right
    rw [List.getElem_map, List.getElem_map, List.getElem_zipIdx,
      represents.distinct.idxOf_getElem, Nat.zero_add]

/-- Both list the same relationships. -/
theorem relationships : table.relationships = registry.relationships := by
  rw [RelationshipTable.relationships, represents.entries room, Registry.relationships]

end

end Represents

end RelationshipTable

/-- One call that registers a relationship. -/
inductive Registration where
  | relationship (key : RelationshipKey)
  | image (target : String)
  | font (target : String)

/-- The key that a call passes. -/
def Registration.key : Registration → RelationshipKey
  | .relationship key => key
  | .image target => { target, kind := RelationshipType.image }
  | .font target => { target, kind := RelationshipType.font }

namespace RelationshipTable

/-- One call: the identifier it answers, and the table afterwards. -/
def perform (table : RelationshipTable) : Registration → String × RelationshipTable
  | .relationship key => table.add key
  | .image target => table.addImage target
  | .font target => table.addFont target

/-- The answers of calls one after another, and the table after them. -/
def run (table : RelationshipTable) : List Registration → List String × RelationshipTable
  | [] => ([], table)
  | registration :: later =>
      let outcome := (table.perform registration).2.run later
      ((table.perform registration).1 :: outcome.1, outcome.2)

theorem perform_eq_add (table : RelationshipTable) (registration : Registration) :
    table.perform registration = table.add registration.key := by
  cases registration <;> rfl

theorem run_snd (table : RelationshipTable) (registrations : List Registration) :
    (table.run registrations).2
      = (registrations.map Registration.key).foldl (fun table key => (table.add key).2) table := by
  induction registrations generalizing table with
  | nil => rfl
  | cons registration later ih =>
      rw [run, ih, perform_eq_add, List.map_cons, List.foldl_cons]

theorem Represents.run {table : RelationshipTable} {registry : Registry}
    (represents : table.Represents registry) (registrations : List Registration) :
    (table.run registrations).2.Represents
      (registry.registerAll (registrations.map Registration.key)) := by
  rw [run_snd]
  exact represents.addAll _

/-- A key that is found is found with the same identifier after a run. -/
theorem get?_run_of_isSome {table : RelationshipTable} {key : RelationshipKey}
    (known : (table.get? key).isSome) (registrations : List Registration) :
    (table.run registrations).2.get? key = table.get? key := by
  induction registrations generalizing table with
  | nil => rfl
  | cons registration later ih =>
      have kept := get?_add_of_isSome known registration.key
      rw [run, perform_eq_add]
      exact (ih (kept ▸ known)).trans kept

/-- Every answer of a run is what its key is found with after the run. -/
theorem answers_run (table : RelationshipTable) (registrations : List Registration) :
    (table.run registrations).1.map some
      = registrations.map fun registration =>
          (table.run registrations).2.get? registration.key := by
  induction registrations generalizing table with
  | nil => rfl
  | cons registration later ih =>
      have first := table.get?_add registration.key
      have known : ((table.add registration.key).2.get? registration.key).isSome := by
        rw [first]
        rfl
      rw [run, perform_eq_add, List.map_cons, List.map_cons, ih,
        get?_run_of_isSome known, first]

/-- Calls for known keys answer what the keys have, and change nothing. -/
theorem run_of_known {table : RelationshipTable} {registrations : List Registration}
    (known : ∀ registration ∈ registrations, (table.get? registration.key).isSome) :
    (table.run registrations).1.map some
        = registrations.map (fun registration => table.get? registration.key)
      ∧ (table.run registrations).2 = table := by
  induction registrations with
  | nil => exact ⟨rfl, rfl⟩
  | cons registration later ih =>
      obtain ⟨id, found⟩ := Option.isSome_iff_exists.1 (known registration List.mem_cons_self)
      obtain ⟨answers, unchanged⟩ :=
        ih fun other member => known other (List.mem_cons_of_mem registration member)
      have step : table.perform registration = (id, table) :=
        (perform_eq_add table registration).trans (add_of_some found)
      rw [run, step]
      constructor
      · rw [List.map_cons, List.map_cons, answers, found]
      · exact unchanged

theorem run_append (table : RelationshipTable) (earlier later : List Registration) :
    table.run (earlier ++ later)
      = ((table.run earlier).1 ++ ((table.run earlier).2.run later).1,
        ((table.run earlier).2.run later).2) := by
  induction earlier generalizing table with
  | nil => rfl
  | cons registration earlier ih => rw [List.cons_append, run, ih, run, List.cons_append]

/-- The table that a part starts with. -/
inductive Origin where
  | blank
  | document
  | package

namespace Origin

/-- The table at the start. -/
def table : Origin → RelationshipTable
  | blank => empty
  | document => RelationshipTable.document
  | package => RelationshipTable.package

/-- The registry that the table stands for at the start. -/
def registry : Origin → Registry
  | blank => Registry.empty
  | document => Registry.document
  | package => Registry.package

variable (origin : Origin) (registrations : List Registration)

/-- Every key that was passed: those at the start, and one by each call. -/
def passed : List RelationshipKey :=
  origin.registry.keys ++ registrations.map Registration.key

/-- The table after calls one after another. -/
def after : RelationshipTable := (origin.table.run registrations).2

/-- The answers of calls one after another. -/
def answers : List String := (origin.table.run registrations).1

/-- What a run leaves behind. -/
structure Numbers : Prop where
  order : (origin.after registrations).relationships.map Relationship.key
    = (origin.passed registrations).eraseDups
  once : ∀ key ∈ origin.passed registrations,
    ((origin.after registrations).relationships.map Relationship.key).count key = 1
  number : ∀ (position : Nat)
    (listed : position < (origin.after registrations).relationships.length),
    (origin.after registrations).relationships[position].id = "rId" ++ toString (position + 1)
  found : ∀ key id, (origin.after registrations).get? key = some id
    ↔ ∃ relationship ∈ (origin.after registrations).relationships,
      relationship.key = key ∧ relationship.id = id
  apart : ∀ key other id, (origin.after registrations).get? key = some id →
    (origin.after registrations).get? other = some id → key = other
  answer : (origin.answers registrations).map some
    = registrations.map fun registration => (origin.after registrations).get? registration.key
  grows : ∀ earlier later, earlier ++ later = registrations →
    (origin.after earlier).relationships <+: (origin.after registrations).relationships
      ∧ origin.answers earlier <+: origin.answers registrations
  replay : ∀ repeated : List Registration,
    (∀ registration ∈ repeated, registration.key ∈ origin.passed registrations) →
      ((origin.after registrations).run repeated).1.map some
          = repeated.map (fun registration => (origin.after registrations).get? registration.key)
        ∧ ((origin.after registrations).run repeated).2 = origin.after registrations

theorem registerAll_keys : Registry.empty.registerAll origin.registry.keys = origin.registry := by
  cases origin <;> decide

theorem keys_registerAll :
    (origin.registry.registerAll (registrations.map Registration.key)).keys
      = (origin.passed registrations).eraseDups := by
  rw [passed, ← Registry.keys_registerAll_empty, Registry.registerAll_append,
    origin.registerAll_keys]

theorem represents : origin.table.Represents origin.registry := by
  have made := Represents.empty.addAll origin.registry.keys
  rw [origin.registerAll_keys] at made
  cases origin with
  | blank => exact made
  | document => exact made
  | package => exact made

theorem represents_after :
    (origin.after registrations).Represents
      (origin.registry.registerAll (registrations.map Registration.key)) :=
  origin.represents.run registrations

variable {origin registrations}

/-- What a part of a run leaves listed stands in front after the whole run. -/
theorem relationships_prefix_after {earlier later : List Registration}
    (room : (origin.passed (earlier ++ later)).eraseDups.length ≤ capacity) :
    (origin.after earlier).relationships <+: (origin.after (earlier ++ later)).relationships := by
  have keys := origin.registry.keys_registerAll_prefix (earlier.map Registration.key)
    (later.map Registration.key)
  rw [← List.map_append] at keys
  rw [← keys_registerAll] at room
  rw [(origin.represents_after earlier).relationships (Nat.le_trans keys.length_le room),
    (origin.represents_after (earlier ++ later)).relationships room]
  exact Registry.relationships_prefix keys

theorem isSome_get?_after_iff {key : RelationshipKey} :
    ((origin.after registrations).get? key).isSome ↔ key ∈ origin.passed registrations := by
  rw [(origin.represents_after registrations).isSome_get?_iff, keys_registerAll,
    List.mem_eraseDups]

/-- As long as the counter does not start over, every run numbers the distinct keys in the
order of first passing, for good. -/
theorem numbers_run (origin : Origin) (registrations : List Registration)
    (room : (origin.passed registrations).eraseDups.length ≤ capacity) :
    origin.Numbers registrations := by
  have final := origin.represents_after registrations
  have keys := origin.keys_registerAll registrations
  have inside := room
  rw [← keys] at inside
  have listed := final.relationships inside
  constructor
  case order => rw [listed, Registry.map_key_relationships, keys]
  case once =>
    intro key member
    rw [listed, Registry.map_key_relationships]
    rw [← List.mem_eraseDups, ← keys] at member
    exact List.count_eq_one_of_mem final.distinct member
  case number =>
    intro position here
    simp only [listed] at here ⊢
    exact (Registry.getElem_relationships here).1
  case found =>
    intro key id
    rw [final.get?_eq inside, listed]
    exact Registry.get?_eq_some_iff_exists_mem final.distinct
  case apart =>
    intro key other id left right
    rw [final.get?_eq inside] at left right
    exact Registry.get?_injective left right
  case answer => exact answers_run origin.table registrations
  case grows =>
    rintro earlier later rfl
    constructor
    · exact relationships_prefix_after room
    · rw [answers, answers, run_append]
      exact List.prefix_append _ _
  case replay =>
    intro repeated known
    apply run_of_known
    intro registration member
    exact isSome_get?_after_iff.2 (known registration member)

/-- An image and a font at one target, a link outside with the target and type of the image,
and two calls for keys that the document starts with or that came before. -/
def assorted : List Registration :=
  [ .image "media/a.png",
    .font "media/a.png",
    .relationship { target := "styles.xml", kind := RelationshipType.styles },
    .relationship { target := "media/a.png", kind := RelationshipType.image, mode := .external },
    .image "media/a.png" ]

/-- The counter has room for a run in which keys differ in one component only. -/
theorem document_numbers_assorted :
    (document.passed assorted).eraseDups.length ≤ capacity ∧ document.Numbers assorted := by
  have room : (document.passed assorted).eraseDups.length ≤ capacity := by decide +kernel
  exact ⟨room, numbers_run document assorted room⟩

end Origin

end RelationshipTable

end WordPackage
