import WordPackage.Integrity
import WordPackage.Resource.Target

/-!
# Proper targets

A target is accepted when every segment of it leads downward and it names no
part. From the word-processing directory such a target leads to its own path.
-/

namespace WordPackage

namespace ResourceTarget

/-- Whether every segment of a target leads downward. -/
def IsProper (resource : ResourceTarget) : Prop :=
  ∀ segment ∈ Text.segments '/' resource.target,
    segment ≠ "" ∧ segment ≠ "." ∧ segment ≠ ".."

instance (resource : ResourceTarget) : Decidable resource.IsProper :=
  inferInstanceAs (Decidable (∀ segment ∈ Text.segments '/' resource.target,
    segment ≠ "" ∧ segment ≠ "." ∧ segment ≠ ".."))

theorem isImproper_eq_false_iff {segment : String} :
    isImproper segment = false ↔ segment ≠ "" ∧ segment ≠ "." ∧ segment ≠ ".." := by
  simp [isImproper, and_assoc]

/-- A text is accepted as a target exactly when what follows its leading slashes is proper and
names no part; that is then the target. -/
theorem parse_eq_ok_iff {given : String} {resource : ResourceTarget} :
    parse given = .ok resource ↔
      resource.target = Text.dropLeading '/' given ∧ resource.IsProper ∧
        resource.path ∉ reservedNames := by
  have proper : ∀ resource : ResourceTarget,
      ((Text.segments '/' resource.target).any isImproper = false ↔ resource.IsProper) := by
    intro resource
    rw [List.any_eq_false]
    exact forall₂_congr fun segment _ => by
      rw [Bool.not_eq_true, isImproper_eq_false_iff]
  constructor
  · intro accepted
    simp only [parse] at accepted
    split at accepted
    · cases accepted
    · rename_i downward
      split at accepted
      · cases accepted
      · rename_i free
        cases accepted
        exact ⟨rfl, (proper _).1 (Bool.eq_false_iff.2 downward), free⟩
  · rintro ⟨target, downward, free⟩
    obtain ⟨target'⟩ := resource
    obtain rfl : target' = Text.dropLeading '/' given := target
    simp only [parse, (proper _).2 downward, Bool.false_eq_true, if_false, free]

end ResourceTarget

/-- Segments that lead downward are passed one after another. -/
theorem foldl_passSegment {segments : List String}
    (downward : ∀ segment ∈ segments, segment ≠ "" ∧ segment ≠ "." ∧ segment ≠ "..")
    (passed : List String) :
    segments.foldl passSegment passed = segments.reverse ++ passed := by
  induction segments generalizing passed with
  | nil => rfl
  | cons segment rest ih =>
      obtain ⟨notEmpty, notHere, notUp⟩ := downward segment List.mem_cons_self
      have passes : passSegment passed segment = segment :: passed := by
        simp [passSegment, notEmpty, notHere, notUp]
      rw [List.foldl_cons, passes, ih fun other member => downward other
        (List.mem_cons_of_mem _ member), List.reverse_cons, List.append_assoc,
        List.singleton_append]

namespace ResourceTarget

theorem segments_path (resource : ResourceTarget) :
    Text.segments '/' resource.path = "word" :: Text.segments '/' resource.target := by
  have chars : resource.path.toList = "word".toList ++ '/' :: resource.target.toList := by
    rw [path, String.toList_append]
    rfl
  rw [Text.segments, chars, List.splitOn_append_cons_self_of_not_mem (by decide)]
  rfl

variable {resource : ResourceTarget}

/-- A proper target does not start with a slash. -/
theorem IsProper.head?_ne (proper : resource.IsProper) :
    resource.target.toList.head? ≠ some '/' := by
  intro slash
  obtain ⟨rest, chars⟩ := List.head?_eq_some_iff.1 slash
  have first : "" ∈ Text.segments '/' resource.target := by
    rw [Text.segments, chars, ← List.nil_append ('/' :: rest),
      List.splitOn_append_cons_self_of_not_mem List.not_mem_nil]
    exact List.mem_cons_self
  exact (proper "" first).1 rfl

/-- From the word-processing directory a proper target leads to its own path. -/
theorem IsProper.resolveTarget_eq (proper : resource.IsProper) :
    resolveTarget PartName.wordDirectory resource.target = resource.path := by
  have downward : ∀ segment ∈ Text.segments '/' resource.path,
      segment ≠ "" ∧ segment ≠ "." ∧ segment ≠ ".." := by
    intro segment member
    rw [segments_path] at member
    rcases List.mem_cons.1 member with rfl | below
    · decide
    · exact proper segment below
  simp only [resolveTarget, proper.head?_ne, if_false]
  rw [← path, foldl_passSegment downward, List.append_nil, List.reverse_reverse,
    Text.joinSegments_segments]

end ResourceTarget

end WordPackage
