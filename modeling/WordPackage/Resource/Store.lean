import Std.Data.HashMap

/-!
# Stores of resources

A store keeps one payload for each path, in the order in which the paths were
first inserted. Inserting a path again replaces its payload in place. An index
from paths to positions makes lookups fast.
-/

namespace WordPackage

/-- Payloads by path, in the order of first insertion. -/
structure ResourceStore (α : Type) where
  entries : Array (String × α) := #[]
  index : Std.HashMap String Nat := ∅

namespace ResourceStore

variable {α : Type}

def empty : ResourceStore α := {}

instance : Inhabited (ResourceStore α) := ⟨empty⟩

/-- Insert a payload: in place if the path is present, else at the end. -/
def insert (store : ResourceStore α) (path : String) (payload : α) : ResourceStore α :=
  match store.index[path]? with
  | some position =>
      { store with entries := store.entries.setIfInBounds position (path, payload) }
  | none =>
      { entries := store.entries.push (path, payload)
        index := store.index.insert path store.entries.size }

def contains (store : ResourceStore α) (path : String) : Bool :=
  store.index.contains path

/-- The paths in the order of first insertion. -/
def paths (store : ResourceStore α) : List String :=
  store.entries.toList.map Prod.fst

/-- The paths with their payloads in the order of first insertion. -/
def toList (store : ResourceStore α) : List (String × α) :=
  store.entries.toList

def size (store : ResourceStore α) : Nat :=
  store.entries.size

def isEmpty (store : ResourceStore α) : Bool :=
  store.entries.isEmpty

def ofList (pairs : List (String × α)) : ResourceStore α :=
  pairs.foldl (fun store pair => store.insert pair.1 pair.2) empty

/-- The index gives exactly the positions of the paths. -/
def Aligned (store : ResourceStore α) : Prop :=
  ∀ (path : String) (position : Nat),
    store.index[path]? = some position ↔ (store.entries[position]?).map Prod.fst = some path

theorem aligned_empty : (empty : ResourceStore α).Aligned := by
  intro path position
  simp [empty]

/-- Insertion keeps index and entries aligned. -/
theorem Aligned.insert {store : ResourceStore α} (aligned : store.Aligned)
    (path : String) (payload : α) : (store.insert path payload).Aligned := by
  intro other position
  unfold ResourceStore.insert
  split
  · rename_i known found
    have here := (aligned path known).1 found
    show store.index[other]? = some position ↔ _
    rw [aligned other position, Array.getElem?_setIfInBounds]
    by_cases same : known = position
    · subst same
      obtain ⟨pair, at_known, rfl⟩ := Option.map_eq_some_iff.1 here
      obtain ⟨bound, entry⟩ := Array.getElem?_eq_some_iff.1 at_known
      simp [bound, entry]
    · simp [same]
  · rename_i unknown
    have absent : ∀ position : Nat, (store.entries[position]?).map Prod.fst ≠ some path := by
      intro position found
      rw [(aligned path position).2 found] at unknown
      cases unknown
    simp only [Std.HashMap.getElem?_insert, beq_iff_eq, Array.getElem?_push]
    by_cases same : path = other
    · subst same
      simp only [↓reduceIte, Option.some.injEq]
      constructor
      · rintro rfl
        simp
      · intro found
        split at found
        · rename_i last
          exact last.symm
        · exact absurd found (absent position)
    · simp only [same, ↓reduceIte, aligned other position]
      split
      · rename_i last
        subst last
        simp [same]
      · rfl

/-- In an aligned store a path is present exactly when it is among the paths. -/
theorem Aligned.contains_iff {store : ResourceStore α} (aligned : store.Aligned)
    {path : String} : store.contains path = true ↔ path ∈ store.paths := by
  rw [contains, Std.HashMap.contains_eq_isSome_getElem?, Option.isSome_iff_exists]
  simp only [aligned path, paths, List.mem_map, Array.mem_toList_iff]
  constructor
  · rintro ⟨position, found⟩
    obtain ⟨pair, entry, rfl⟩ := Option.map_eq_some_iff.1 found
    exact ⟨pair, Array.mem_of_getElem? entry, rfl⟩
  · rintro ⟨pair, member, rfl⟩
    obtain ⟨position, entry⟩ := Array.getElem?_of_mem member
    exact ⟨position, by rw [entry]; rfl⟩

end ResourceStore

end WordPackage
