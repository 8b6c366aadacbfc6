import Mathlib.Data.List.TakeWhile
import WordPackage.Proofs.Text.Segments
import WordPackage.Text.Blank

/-!
# Trimmed texts

Blanks around a text are trimmed whatever they are, and a character inside that is no blank keeps
what stands before it. Capitals and small letters are alike no blanks.
-/

namespace WordPackage.Text

variable {drops : Char → Bool} {char : Char}

theorem dropWhile_append_cons (kept : drops char = false) (front rest : List Char) :
    (front ++ char :: rest).dropWhile drops = front.dropWhile drops ++ char :: rest := by
  rw [List.dropWhile_append]
  split
  · rename_i all
    rw [List.isEmpty_iff.1 all, List.dropWhile_cons_of_neg (by simp [kept]), List.nil_append]
  · rfl

/-- Taking at the start ends at a character that is not taken. -/
theorem takeWhile_append_cons {takes : Char → Bool} (refused : takes char = false)
    (front rest : List Char) :
    (front ++ char :: rest).takeWhile takes = front.takeWhile takes := by
  rw [List.takeWhile_append]
  split
  · rename_i all
    rw [List.takeWhile_cons_of_neg (by simp [refused]), List.append_nil,
      (List.takeWhile_prefix takes).eq_of_length all]
  · rfl

theorem dropEndWhile_append_cons (kept : drops char = false) (front rest : List Char) :
    dropEndWhile drops (front ++ char :: rest) = front ++ char :: dropEndWhile drops rest := by
  rw [dropEndWhile, List.reverse_append, List.reverse_cons, List.append_assoc,
    List.singleton_append, dropWhile_append_cons kept]
  simp [dropEndWhile]

theorem dropEndWhile_append_of_all {after : List Char} (all : ∀ char ∈ after, drops char = true)
    (chars : List Char) : dropEndWhile drops (chars ++ after) = dropEndWhile drops chars := by
  rw [dropEndWhile, List.reverse_append, List.dropWhile_append_of_pos, dropEndWhile]
  exact fun char member => all char (List.mem_reverse.1 member)

theorem dropEndWhile_eq_self {chars : List Char}
    (kept : ∀ char ∈ chars.getLast?, drops char = false) : dropEndWhile drops chars = chars := by
  rcases chars.eq_nil_or_concat with rfl | ⟨front, last, rfl⟩
  · rfl
  · have keeps : drops last = false := kept last (by simp)
    rw [List.concat_eq_append, dropEndWhile_append_cons keeps]
    rfl

theorem trimBlanks_surrounded {before after : List Char}
    (blanks : ∀ char ∈ before, isBlank char = true) (blanks' : ∀ char ∈ after, isBlank char = true)
    (chars : List Char) : trimBlanks (before ++ (chars ++ after)) = trimBlanks chars := by
  rw [trimBlanks, List.dropWhile_append_of_pos blanks, List.dropWhile_append, trimBlanks]
  split
  · rename_i all
    rw [List.isEmpty_iff.1 all, List.dropWhile_eq_nil_iff.2 blanks']
  · exact dropEndWhile_append_of_all blanks' _

/-- A text that does not end with a blank is trimmed at its start only where a character that is
none follows it. -/
theorem trimBlanks_append_cons {chars : List Char}
    (ends : ∀ char ∈ chars.getLast?, isBlank char = false) (kept : isBlank char = false)
    (rest : List Char) :
    trimBlanks (chars ++ char :: rest)
      = trimBlanks chars ++ char :: dropEndWhile isBlank rest := by
  have unended : ∀ char ∈ (chars.dropWhile isBlank).getLast?, isBlank char = false := by
    intro last member
    obtain ⟨front, split⟩ := List.dropWhile_suffix isBlank (l := chars)
    refine ends last ?_
    rw [← split, List.getLast?_append, Option.mem_def.1 member]
    rfl
  rw [trimBlanks, dropWhile_append_cons kept, dropEndWhile_append_cons kept, trimBlanks,
    dropEndWhile_eq_self unended]

/-- The letters that case concerns are no blanks. -/
theorem isBlank_toLower (char : Char) : isBlank char.toLower = isBlank char := by
  rcases toLower_cases char with ⟨same, -⟩ | ⟨shifted, least, greatest⟩
  · rw [same]
  · have capital : 65 ≤ char.toNat ∧ char.toNat ≤ 90 := ⟨least, greatest⟩
    have small : char.toLower.toNat = char.toNat + 32 := shifted
    simp only [isBlank]
    rw [Bool.eq_iff_iff]
    simp only [Bool.or_eq_true, Bool.and_eq_true, decide_eq_true_eq, beq_iff_eq]
    omega

theorem trimBlanks_map_toLower (chars : List Char) :
    trimBlanks (chars.map Char.toLower) = (trimBlanks chars).map Char.toLower := by
  have same : isBlank ∘ Char.toLower = isBlank := funext isBlank_toLower
  rw [trimBlanks, trimBlanks, dropEndWhile, dropEndWhile, List.dropWhile_map, same,
    ← List.map_reverse, List.dropWhile_map, same, List.map_reverse]

end WordPackage.Text
