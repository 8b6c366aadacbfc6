import WordPackage.Proofs.Draft.Integrity
import WordPackage.Proofs.Integrity.SourceDirectory
import WordPackage.Proofs.Resource.Target

/-!
# Normal names

A target is resolved to a normal name: an empty one, or one whose segments all lead downward. The
normal names are those that resolve to themselves from the root. The path under which a resource
is stored is the name that its target resolves to where it is related.
-/

namespace WordPackage

/-- Whether a segment leads downward: it is not empty, does not stay in place and does not lead
upward. -/
def IsDownward (segment : String) : Prop :=
  segment ≠ "" ∧ segment ≠ "." ∧ segment ≠ ".."

/-- Whether a name is empty or all its segments lead downward. -/
def IsNormalName (name : String) : Prop :=
  name = "" ∨ ∀ segment ∈ Text.segments '/' name, IsDownward segment

/-- What is passed on a way leads downward, whatever there is on the way. -/
theorem isDownward_of_mem_followed {passed way : List String}
    (downward : ∀ segment ∈ passed, IsDownward segment) :
    ∀ segment ∈ followed passed way, IsDownward segment := by
  fun_induction followed passed way with
  | case1 passed => exact downward
  | case2 passed other way stays ih => exact ih downward
  | case3 passed way notStays ih =>
      exact ih fun segment member => downward segment (List.dropLast_subset _ member)
  | case4 passed other way notStays notUp ih =>
      refine ih (List.forall_mem_append.2 ⟨downward, ?_⟩)
      rw [not_or] at notStays
      exact List.forall_mem_singleton.2 ⟨notStays.1, notStays.2, notUp⟩

/-- Every target resolves to a normal name. -/
theorem isNormalName_resolveTarget (base target : String) :
    IsNormalName (resolveTarget base target) := by
  rw [resolveTarget_eq]
  generalize (if target.toList.head? = some '/' then String.ofList (target.toList.drop 1)
    else base ++ target) = joined
  have clear : ∀ segment ∈ followed [] (Text.segments '/' joined), '/' ∉ segment.toList :=
    slash_notMem_followed fun _ member => Text.separator_notMem_of_mem_segments member
  have downward : ∀ segment ∈ followed [] (Text.segments '/' joined), IsDownward segment :=
    isDownward_of_mem_followed fun _ none => nomatch none
  by_cases root : followed [] (Text.segments '/' joined) = []
  · rw [root]
    exact .inl rfl
  · refine .inr ?_
    rwa [Text.segments_joinSegments root clear]

/-- A normal name resolves to itself from the root. -/
theorem IsNormalName.resolveTarget_eq {name : String} (normal : IsNormalName name) :
    resolveTarget "" name = name := by
  rcases normal with rfl | downward
  · decide
  · have proper : (ResourceTarget.mk name).IsProper := downward
    have relative : name.toList.head? ≠ some '/' := proper.head?_ne
    simp only [resolveTarget, relative, if_false]
    rw [String.empty_append, foldl_passSegment downward, List.append_nil, List.reverse_reverse,
      Text.joinSegments_segments]

/-- The normal names are those that resolve to themselves from the root. -/
theorem isNormalName_iff {name : String} : IsNormalName name ↔ resolveTarget "" name = name := by
  constructor
  · exact IsNormalName.resolveTarget_eq
  · intro fixed
    rw [← fixed]
    exact isNormalName_resolveTarget "" name

/-- Names are resolved to normal ones, which resolving again leaves as they are, and they agree
with the names of resources: from the directory that the relationships of the document and of the
font table are relative to, every accepted target resolves to the path of the resource. -/
theorem resolveTarget_isNormal_and_agrees :
    (∀ base target : String, IsNormalName (resolveTarget base target) ∧
      resolveTarget "" (resolveTarget base target) = resolveTarget base target) ∧
    (∀ (given : String) (resource : ResourceTarget),
      ResourceTarget.parse given = .ok resource →
        resolveTarget PartName.wordDirectory resource.target = resource.path) ∧
    baseDirectory PartName.documentRelationships = PartName.wordDirectory ∧
    baseDirectory PartName.fontTableRelationships = PartName.wordDirectory := by
  refine ⟨?_, ?_, Draft.baseDirectory_documentRelationships,
    Draft.baseDirectory_fontTableRelationships⟩
  · intro base target
    have normal := isNormalName_resolveTarget base target
    exact ⟨normal, normal.resolveTarget_eq⟩
  · intro given resource accepted
    obtain ⟨-, proper, -⟩ := ResourceTarget.parse_eq_ok_iff.1 accepted
    exact proper.resolveTarget_eq

/-- A nested target that is given with slashes at the start resolves to its path. -/
theorem resolveTarget_agrees_rooted :
    ResourceTarget.parse "//media/a.b/c" = .ok ⟨"media/a.b/c"⟩ ∧
    resolveTarget PartName.wordDirectory "media/a.b/c" = "word/media/a.b/c" := by
  have accepted : ResourceTarget.parse "//media/a.b/c" = .ok ⟨"media/a.b/c"⟩ := by
    rw [ResourceTarget.parse_eq_ok_iff]
    decide
  exact ⟨accepted, resolveTarget_isNormal_and_agrees.2.1 _ _ accepted⟩

end WordPackage
