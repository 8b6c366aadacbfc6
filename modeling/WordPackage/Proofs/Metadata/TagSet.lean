import Mathlib.Data.List.Sort
import Mathlib.Data.String.Basic
import WordPackage.Metadata.TagSet

/-!
# Sets of tags and their members

The set of the texts of a list has exactly these members, however often and in whatever order
they are listed. A set is the set of its own members.
-/

namespace WordPackage.TagSet

theorem mem_toList_foldl_insert {text : String} {texts : List String} {tags : TagSet} :
    text ∈ (texts.foldl insert tags).toList ↔ text ∈ texts ∨ text ∈ tags.toList := by
  induction texts generalizing tags with
  | nil => simp
  | cons head rest ih =>
      rw [List.foldl_cons, ih, toList_insert, mem_place, List.mem_cons, or_left_comm, or_assoc]

theorem mem_toList_ofList {text : String} {texts : List String} :
    text ∈ (ofList texts).toList ↔ text ∈ texts := by
  rw [ofList, mem_toList_foldl_insert, empty, List.mem_nil_iff, or_false]

theorem ofList_toList (tags : TagSet) : ofList tags.toList = tags := by
  ext1
  apply (ofList tags.toList).ascending.eq_of_mem_iff tags.ascending
  intro text
  exact mem_toList_ofList

@[simp] theorem toList_inj {tags others : TagSet} : tags.toList = others.toList ↔ tags = others :=
  ⟨TagSet.ext, fun same => congrArg toList same⟩

end WordPackage.TagSet
