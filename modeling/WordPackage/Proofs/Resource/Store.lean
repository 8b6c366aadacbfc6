import WordPackage.Proofs.Assignments
import WordPackage.Resource.Store

/-!
# Stores as assignments

An aligned store holds each path once, and inserting into it is assigning: the
index only makes it fast.
-/

namespace WordPackage

/-- Assigning replaces the pair at the first position of the key. -/
theorem Assignments.set_eq_set {κ α : Type} [DecidableEq κ] {key : κ} {value : α}
    {pairs : Assignments κ α} {position : Nat}
    (here : (pairs[position]?).map Prod.fst = some key)
    (earlier : ∀ before < position, (pairs[before]?).map Prod.fst ≠ some key) :
    Assignments.set key value pairs = List.set pairs position (key, value) := by
  induction pairs generalizing position with
  | nil => cases here
  | cons pair rest ih =>
      cases position with
      | zero =>
          have same : pair.1 = key := by simpa using here
          simp [Assignments.set, same]
      | succ previous =>
          have apart : pair.1 ≠ key := by simpa using earlier 0 (Nat.succ_pos previous)
          rw [Assignments.set, if_neg apart, List.set_cons_succ,
            ih (by simpa using here) fun before bound => ?_]
          simpa using earlier (before + 1) (Nat.succ_lt_succ bound)

namespace ResourceStore

variable {α : Type} {store : ResourceStore α}

/-- No path stands at two positions of an aligned store. -/
theorem Aligned.nodup_paths (aligned : store.Aligned) : store.paths.Nodup := by
  rw [List.Nodup, List.pairwise_iff_getElem]
  intro first second firstBound secondBound ordered same
  have at_position : ∀ (position : Nat) (bound : position < store.paths.length),
      store.index[store.paths[position]]? = some position := by
    intro position bound
    refine (aligned _ _).2 ?_
    have inside : position < store.entries.size := by simpa [paths] using bound
    simp [paths, inside]
  have known := at_position first firstBound
  rw [same, at_position second secondBound, Option.some.injEq] at known
  omega

/-- Inserting into an aligned store is assigning. -/
theorem Aligned.toList_insert (aligned : store.Aligned) (path : String) (payload : α) :
    (store.insert path payload).toList = Assignments.set path payload store.toList := by
  have positions : ∀ position : Nat, store.index[path]? = some position ↔
      (store.toList[position]?).map Prod.fst = some path := by
    intro position
    rw [aligned path position, toList, Array.getElem?_toList]
  unfold ResourceStore.insert
  split
  · rename_i position found
    rw [Assignments.set_eq_set ((positions position).1 found) fun before bound here => ?_]
    · simp [toList]
    · -- The index knows one position of a path only.
      have known := (positions before).2 here
      rw [found, Option.some.injEq] at known
      omega
  · rename_i unknown
    have new : path ∉ Assignments.keys store.toList := by
      intro member
      have present := aligned.contains_iff.2 member
      rw [contains, Std.HashMap.contains_eq_isSome_getElem?, unknown] at present
      cases present
    rw [Assignments.set_of_notMem new]
    simp [toList]

theorem Aligned.mem_paths_insert (aligned : store.Aligned) {path other : String} {payload : α} :
    other ∈ (store.insert path payload).paths ↔ other = path ∨ other ∈ store.paths := by
  show other ∈ Assignments.keys (store.insert path payload).toList ↔ _
  rw [aligned.toList_insert, Assignments.mem_keys_set]
  rfl

end ResourceStore

end WordPackage
