/-!
# Sets of tags

A finite set of texts, held in the order of their code points, which is also the
order of their UTF-8 bytes.
-/

namespace WordPackage

/-- A set of texts in the order of their code points. -/
structure TagSet where
  toList : List String
  ascending : toList.Pairwise (· < ·)

namespace TagSet

@[ext] theorem ext {left right : TagSet} (members : left.toList = right.toList) :
    left = right := by
  cases left
  cases right
  cases members
  rfl

instance : DecidableEq TagSet := fun left right =>
  decidable_of_iff (left.toList = right.toList) ⟨ext, fun same => congrArg toList same⟩

def empty : TagSet := ⟨[], .nil⟩

instance : Inhabited TagSet := ⟨empty⟩

/-- Place a text among ascending texts, unless it is there. -/
def place (text : String) : List String → List String
  | [] => [text]
  | head :: rest =>
      if text < head then text :: head :: rest
      else if text = head then head :: rest
      else head :: place text rest

/-- Exactly the text is added. -/
theorem mem_place {text other : String} {texts : List String} :
    other ∈ place text texts ↔ other = text ∨ other ∈ texts := by
  induction texts with
  | nil => simp [place]
  | cons head rest ih =>
      unfold place
      split
      · simp
      · split
        · rename_i same
          simp [same]
        · simp [ih, or_left_comm]

/-- A text placed among ascending texts leaves them ascending. -/
theorem pairwise_place {text : String} {texts : List String}
    (ascending : texts.Pairwise (· < ·)) : (place text texts).Pairwise (· < ·) := by
  induction texts with
  | nil => simp [place]
  | cons head rest ih =>
      rw [List.pairwise_cons] at ascending
      unfold place
      split
      · rename_i first
        refine .cons ?_ (.cons ascending.1 ascending.2)
        intro other later
        rcases List.mem_cons.1 later with rfl | later
        · exact first
        · exact String.lt_trans first (ascending.1 other later)
      · split
        · exact .cons ascending.1 ascending.2
        · rename_i notFirst apart
          refine .cons ?_ (ih ascending.2)
          intro other later
          rcases mem_place.1 later with rfl | later
          · exact Std.lt_of_le_of_ne (String.not_lt.1 notFirst) (Ne.symm apart)
          · exact ascending.1 other later

def insert (tags : TagSet) (text : String) : TagSet :=
  ⟨place text tags.toList, pairwise_place tags.ascending⟩

def ofList (texts : List String) : TagSet :=
  texts.foldl insert empty

@[simp] theorem toList_insert (tags : TagSet) (text : String) :
    (tags.insert text).toList = place text tags.toList :=
  rfl

end TagSet

end WordPackage
