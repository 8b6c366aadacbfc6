/-!
# Texts cut at a mark

A text is cut at a mark of one or more characters where the mark occurs, read from left to right;
an occurrence that is found is passed over as a whole. Replacing a mark joins the pieces with
something else.
-/

namespace WordPackage.Text

/-- The pieces of a text between the occurrences of a mark. The number says how many characters of
an occurrence are still to be passed over. -/
def piecesFrom (mark : List Char) : Nat → List Char → List (List Char)
  | _, [] => [[]]
  | passing + 1, _ :: rest => piecesFrom mark passing rest
  | 0, char :: rest =>
      if mark.isPrefixOf (char :: rest) then [] :: piecesFrom mark (mark.length - 1) rest
      else (piecesFrom mark 0 rest).modifyHead (char :: ·)

/-- The pieces of a text between the occurrences of a mark. -/
def pieces (mark chars : List Char) : List (List Char) :=
  piecesFrom mark 0 chars

/-- A text with something else in the place of every occurrence of a mark. -/
def replaced (mark replacement chars : List Char) : List Char :=
  replacement.intercalate (pieces mark chars)

variable {mark : List Char}

@[simp] theorem pieces_nil (mark : List Char) : pieces mark [] = [[]] := by
  rw [pieces, piecesFrom]

theorem piecesFrom_eq_pieces_drop (passing : Nat) (chars : List Char) :
    piecesFrom mark passing chars = pieces mark (chars.drop passing) := by
  induction passing generalizing chars with
  | zero => rfl
  | succ passing ih =>
      cases chars with
      | nil => rw [List.drop_nil, pieces_nil, piecesFrom]
      | cons char rest => rw [List.drop_succ_cons, ← ih, piecesFrom]

/-- A text that begins with a mark has an empty first piece. -/
theorem pieces_append_mark (occurs : mark ≠ []) (rest : List Char) :
    pieces mark (mark ++ rest) = [] :: pieces mark rest := by
  cases mark with
  | nil => exact absurd rfl occurs
  | cons first others =>
      have found : (first :: others).isPrefixOf (first :: others ++ rest) = true :=
        List.isPrefixOf_iff_prefix.2 (List.prefix_append _ _)
      rw [pieces, List.cons_append, piecesFrom, ← List.cons_append, if_pos found,
        piecesFrom_eq_pieces_drop, List.length_cons, Nat.add_one_sub_one, List.drop_left]

theorem pieces_cons {char : Char} {rest : List Char} (absent : ¬mark <+: char :: rest) :
    pieces mark (char :: rest) = (pieces mark rest).modifyHead (char :: ·) := by
  rw [pieces, piecesFrom, if_neg fun found => absent (List.isPrefixOf_iff_prefix.1 found), pieces]

/-- There is always a piece. -/
theorem exists_pieces_eq_cons (mark chars : List Char) :
    ∃ piece later, pieces mark chars = piece :: later := by
  induction chars with
  | nil => exact ⟨[], [], pieces_nil mark⟩
  | cons char rest ih =>
      by_cases found : mark <+: char :: rest
      · rw [pieces, piecesFrom, if_pos (List.isPrefixOf_iff_prefix.2 found)]
        exact ⟨_, _, rfl⟩
      · obtain ⟨piece, later, split⟩ := ih
        rw [pieces_cons found, split]
        exact ⟨_, _, rfl⟩

theorem replaced_append_mark (occurs : mark ≠ []) (replacement rest : List Char) :
    replaced mark replacement (mark ++ rest) = replacement ++ replaced mark replacement rest := by
  obtain ⟨piece, later, split⟩ := exists_pieces_eq_cons mark rest
  rw [replaced, pieces_append_mark occurs, replaced, split, List.intercalate_cons_cons,
    List.nil_append]

/-- A character at which no mark begins is kept. -/
theorem replaced_cons {char : Char} {rest : List Char} (absent : ¬mark <+: char :: rest)
    (replacement : List Char) :
    replaced mark replacement (char :: rest) = char :: replaced mark replacement rest := by
  obtain ⟨piece, later, split⟩ := exists_pieces_eq_cons mark rest
  rw [replaced, pieces_cons absent, replaced, split, List.modifyHead_cons]
  cases later with
  | nil => rw [List.intercalate_singleton, List.intercalate_singleton]
  | cons next others =>
      rw [List.intercalate_cons_cons, List.intercalate_cons_cons, List.cons_append,
        List.cons_append]

end WordPackage.Text
