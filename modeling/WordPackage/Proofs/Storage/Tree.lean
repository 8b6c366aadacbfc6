import WordPackage.Storage.Tree

/-!
# Trees of files as they are written to

A file that was written is found with its bytes where it was written. Writing it changes no
directory, so every path through the tree is followed as before.
-/

namespace WordPackage.Storage

namespace Tree

variable {tree : Tree} {place other : List String} {node : Node}

/-- The tree with something put at a place. -/
def put (tree : Tree) (place : List String) (node : Node) : Tree :=
  { nodes := tree.nodes.set place node }

theorem node?_put_self (isBelow : place ≠ []) :
    (tree.put place node).node? place = some node := by
  cases place with
  | nil => exact absurd rfl isBelow
  | cons name names =>
      change Assignments.get? _ (Assignments.set _ _ _) = _
      rw [Assignments.get?_set, if_pos rfl]

theorem node?_put_of_ne (apart : place ≠ other) :
    (tree.put place node).node? other = tree.node? other := by
  cases other with
  | nil => rfl
  | cons name names =>
      change Assignments.get? _ (Assignments.set _ _ _) = Assignments.get? _ _
      rw [Assignments.get?_set, if_neg apart]

theorem node?_of_follow {segment : String} {next : List String}
    (follows : tree.follow other segment = .ok next) : tree.node? other = some .directory := by
  unfold follow at follows
  split at follows
  · cases follows
  · cases follows
  · assumption

/-- Where no directory is replaced a segment leads where it led before. -/
theorem follow_put {segment : String} {next : List String}
    (isNoDirectory : tree.node? place ≠ some .directory)
    (follows : tree.follow other segment = .ok next) :
    (tree.put place node).follow other segment = .ok next := by
  -- The place written to is no directory, and the way leads through directories only.
  have directory := node?_of_follow follows
  have apart : place ≠ other := by
    rintro rfl
    exact isNoDirectory directory
  rw [follow, node?_put_of_ne apart, ← follow]
  exact follows

/-- Where no directory is replaced a path leads where it led before. -/
theorem locate_put {path : Path} {target : List String}
    (isNoDirectory : tree.node? place ≠ some .directory) (located : tree.locate path = .ok target) :
    (tree.put place node).locate path = .ok target := by
  -- The path to a place does not go through it unless it is a directory, which it is not.
  have all : ∀ (segments : List String) (start : List String),
      segments.foldlM tree.follow start = .ok target →
        segments.foldlM (tree.put place node).follow start = .ok target := by
    intro segments
    induction segments with
    | nil =>
        intro start run
        exact run
    | cons segment segments ih =>
        intro start run
        rw [List.foldlM_cons] at run ⊢
        cases step : tree.follow start segment with
        | error fault =>
            rw [step] at run
            cases run
        | ok next =>
            rw [step] at run
            rw [follow_put isNoDirectory step]
            exact ih next run
  unfold locate at located ⊢
  split at located
  · cases located
  · exact all path.segments [] located

/-- A file is written where its path leads, unless there is a directory. -/
theorem writeFile_eq_ok {path : Path} {bytes : ByteArray} {later : Tree}
    (writes : tree.writeFile path bytes = .ok later) :
    ∃ place, tree.locate path = .ok place ∧ path.onlyDirectory = false ∧
      tree.node? place ≠ some .directory ∧ later = tree.put place (.file bytes) := by
  unfold writeFile at writes
  split at writes
  · cases located : tree.locateDirectory path with
    | error fault =>
        rw [located] at writes
        cases writes
    | ok place =>
        rw [located] at writes
        cases writes
  · rename_i mayBeFile
    cases located : tree.locate path with
    | error fault =>
        rw [located] at writes
        cases writes
    | ok place =>
        rw [located] at writes
        simp only [bind, Except.bind] at writes
        split at writes
        · cases writes
        · rename_i noDirectory
          cases writes
          exact ⟨place, rfl, Bool.eq_false_iff.2 mayBeFile, noDirectory, rfl⟩

/-- A file that was written is found with its bytes. -/
theorem find_writeFile {path : Path} {bytes : ByteArray} {later : Tree}
    (writes : tree.writeFile path bytes = .ok later) : later.find path = .ok (.file bytes) := by
  obtain ⟨place, located, mayBeFile, isNoDirectory, rfl⟩ := writeFile_eq_ok writes
  have isBelow : place ≠ [] := by
    rintro rfl
    exact isNoDirectory rfl
  rw [find, locate_put isNoDirectory located]
  simp only [bind, Except.bind, node?_put_self isBelow, mayBeFile]
  rfl

end Tree

namespace Action

variable {α β : Type} {tree later : Tree}

/-- An action that goes on succeeds through all its steps. -/
theorem run_bind_eq_ok {action : Action α} {next : α → Action β} {value : β}
    (runs : (ExceptT.run (action >>= next)).run tree = (.ok value, later)) :
    ∃ first between, (ExceptT.run action).run tree = (.ok first, between) ∧
      (ExceptT.run (next first)).run between = (.ok value, later) := by
  unfold ExceptT.run StateT.run at runs ⊢
  simp only [bind, ExceptT.bind, ExceptT.mk, StateT.bind, ExceptT.bindCont] at runs
  cases outcome : action tree with
  | mk result between =>
      rw [outcome] at runs
      cases result with
      | error fault => cases runs
      | ok first => exact ⟨first, between, rfl, runs⟩

/-- A change that succeeds leaves the changed tree. -/
theorem run_change_eq_ok {step : Tree → Except Fault Tree}
    (runs : (ExceptT.run (change step)).run tree = (.ok (), later)) : step tree = .ok later := by
  obtain ⟨found, between, gets, runs⟩ := run_bind_eq_ok runs
  cases gets
  cases changed : step tree with
  | error fault =>
      rw [changed] at runs
      cases runs
  | ok other =>
      rw [changed] at runs
      cases runs
      rfl

end Action

end WordPackage.Storage
