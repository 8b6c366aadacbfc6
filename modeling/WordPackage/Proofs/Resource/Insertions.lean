import WordPackage.Proofs.Resource.Store

/-!
# Stores filled by insertions

The entries of a store are reached through its index, and nothing but the index says that a
position is one of an entry. In a store that is filled by insertions alone the index is right about
every path, so no insertion goes beyond the entries, and the store is the map of what was inserted
last, in the order of first insertion.
-/

namespace WordPackage.ResourceStore

variable {α : Type}

/-- Insert a payload where the index directs: into the entry at the position of a path that it
knows, whose path stays as it is, and behind all entries otherwise. There is no result if the
position is beyond the entries. -/
def insertIndexed? (store : ResourceStore α) (path : String) (payload : α) :
    Option (ResourceStore α) :=
  match store.index[path]? with
  | some position =>
      store.entries[position]?.map fun entry =>
        { store with entries := store.entries.setIfInBounds position (entry.1, payload) }
  | none =>
      some {
        entries := store.entries.push (path, payload)
        index := store.index.insert path store.entries.size }

/-- The store after payloads are inserted one after another, unless one of them goes beyond the
entries. -/
def fill? (store : ResourceStore α) (pairs : List (String × α)) : Option (ResourceStore α) :=
  pairs.foldlM (fun store pair => store.insertIndexed? pair.1 pair.2) store

/-- The payload that was inserted last at a path. -/
def lastInserted? (pairs : List (String × α)) (path : String) : Option α :=
  pairs.reverse.lookup path

/-- Whether a store is the map of insertions, in their order. -/
structure IsMapOf (store : ResourceStore α) (pairs : List (String × α)) : Prop where
  aligned : ∀ (path : String) (position : Nat),
    store.index[path]? = some position ↔ store.paths[position]? = some path
  contains_iff : ∀ path, store.contains path = true ↔ path ∈ pairs.map Prod.fst
  paths_eq : store.paths = (pairs.map Prod.fst).eraseDups
  nodup_paths : store.paths.Nodup
  size_eq : store.size = (pairs.map Prod.fst).eraseDups.length
  toList_eq : store.toList.map (fun pair => (pair.1, some pair.2))
    = (pairs.map Prod.fst).eraseDups.map fun path => (path, lastInserted? pairs path)

theorem Aligned.insertIndexed?_eq {store : ResourceStore α} (aligned : store.Aligned)
    (path : String) (payload : α) :
    store.insertIndexed? path payload = some (store.insert path payload) := by
  cases known : store.index[path]? with
  | none => simp only [insertIndexed?, ResourceStore.insert, known]
  | some position =>
      obtain ⟨entry, found, named⟩ := Option.map_eq_some_iff.1 ((aligned path position).1 known)
      simp only [insertIndexed?, ResourceStore.insert, known, found, Option.map_some, named]

theorem Aligned.insertAll {store : ResourceStore α} (aligned : store.Aligned)
    (pairs : List (String × α)) :
    (pairs.foldl (fun store pair => store.insert pair.1 pair.2) store).Aligned := by
  induction pairs generalizing store with
  | nil => exact aligned
  | cons pair rest ih => exact ih (aligned.insert pair.1 pair.2)

/-- No insertion into an aligned store goes beyond its entries. -/
theorem Aligned.fill?_eq {store : ResourceStore α} (aligned : store.Aligned)
    (pairs : List (String × α)) :
    store.fill? pairs
      = some (pairs.foldl (fun store pair => store.insert pair.1 pair.2) store) := by
  induction pairs generalizing store with
  | nil => rfl
  | cons pair rest ih =>
      rw [fill?, List.foldlM_cons, aligned.insertIndexed?_eq, List.foldl_cons,
        ← ih (aligned.insert pair.1 pair.2)]
      rfl

/-- Insertions into an aligned store are assignments. -/
theorem Aligned.toList_insertAll {store : ResourceStore α} (aligned : store.Aligned)
    (pairs : List (String × α)) :
    (pairs.foldl (fun store pair => store.insert pair.1 pair.2) store).toList
      = Assignments.setAll store.toList pairs := by
  induction pairs generalizing store with
  | nil => rfl
  | cons pair rest ih =>
      rw [List.foldl_cons, ih (aligned.insert pair.1 pair.2), aligned.toList_insert,
        Assignments.setAll_cons]

theorem aligned_ofList (pairs : List (String × α)) : (ofList pairs).Aligned :=
  aligned_empty.insertAll pairs

theorem toList_ofList (pairs : List (String × α)) :
    (ofList pairs).toList = Assignments.ofList pairs := by
  rw [ofList, aligned_empty.toList_insertAll, Assignments.ofList_eq_setAll]
  rfl

theorem paths_ofList (pairs : List (String × α)) :
    (ofList pairs).paths = (pairs.map Prod.fst).eraseDups := by
  rw [← Assignments.keys_ofList, ← toList_ofList]
  rfl

/-- A store filled by insertions is their map: no insertion goes beyond the entries, and each path
stands once, where it was inserted first, with the payload that was inserted last. -/
theorem ofList_isMapOf (pairs : List (String × α)) :
    empty.fill? pairs = some (ofList pairs) ∧ (ofList pairs).IsMapOf pairs := by
  have aligned := aligned_ofList pairs
  refine ⟨aligned_empty.fill?_eq pairs, ?_, ?_, paths_ofList pairs, aligned.nodup_paths, ?_, ?_⟩
  · intro path position
    rw [aligned path position, paths, List.getElem?_map, Array.getElem?_toList]
  · intro path
    rw [aligned.contains_iff, paths_ofList, List.mem_eraseDups]
  · rw [← paths_ofList, paths, List.length_map, Array.length_toList, size]
  · have lasts : ∀ pair ∈ (ofList pairs).toList, lastInserted? pairs pair.1 = some pair.2 := by
      intro pair member
      rw [lastInserted?, ← Assignments.get?_ofList, ← toList_ofList]
      exact Assignments.get?_of_mem aligned.nodup_paths member
    rw [← paths_ofList, paths, List.map_map]
    apply List.map_congr_left
    intro pair member
    rw [Function.comp_apply, lasts pair member]

end WordPackage.ResourceStore
