import WordPackage.Text.Segments

/-!
# Pieces and marks

A text is told by its pieces: pieces without the separator are found again when they are joined
and the text is cut. A mark that ends with the separator occurs only where a piece ends with the
rest of the mark, so that the last occurrence of the mark is found among the pieces.
-/

namespace WordPackage.Text

variable {separator : Char}

/-- The separator stands in no piece. -/
theorem separator_notMem_of_mem_splitOn {chars piece : List Char}
    (member : piece ∈ chars.splitOn separator) : separator ∉ piece := by
  induction chars generalizing piece with
  | nil =>
      rw [List.splitOn_nil] at member
      rw [List.mem_singleton.1 member]
      exact List.not_mem_nil
  | cons char rest ih =>
      rw [List.splitOn_cons_eq_if_modifyHead] at member
      split at member
      · rcases List.mem_cons.1 member with rfl | later
        · exact List.not_mem_nil
        · exact ih later
      · rename_i other
        obtain ⟨first, later, split⟩ :=
          List.exists_cons_of_ne_nil (List.splitOn_ne_nil separator rest)
        rw [split, List.modifyHead_cons] at member
        rw [split] at ih
        rcases List.mem_cons.1 member with rfl | later
        · refine List.not_mem_cons_of_ne_of_not_mem ?_ (ih List.mem_cons_self)
          rintro rfl
          exact other BEq.rfl
        · exact ih (List.mem_cons_of_mem _ later)

theorem separator_notMem_of_mem_segments {text piece : String}
    (member : piece ∈ segments separator text) : separator ∉ piece.toList := by
  obtain ⟨chars, inside, rfl⟩ := List.mem_map.1 member
  rw [String.toList_ofList]
  exact separator_notMem_of_mem_splitOn inside

theorem segments_of_notMem {text : String} (clear : separator ∉ text.toList) :
    segments separator text = [text] := by
  rw [segments, List.splitOn_eq_singleton clear, List.map_singleton, String.ofList_toList]

theorem segments_injective : Function.Injective (segments separator) := by
  intro text other same
  rw [← joinSegments_segments separator text, same, joinSegments_segments]

/-- Pieces that are joined are found again. -/
theorem segments_joinSegments {pieces : List String} (inhabited : pieces ≠ [])
    (clear : ∀ piece ∈ pieces, separator ∉ piece.toList) :
    segments separator (joinSegments separator pieces) = pieces := by
  have same : String.ofList ∘ String.toList = id := funext fun _ => String.ofList_toList
  have apart : ∀ chars ∈ pieces.map String.toList, separator ∉ chars := by
    intro chars member
    obtain ⟨piece, listed, rfl⟩ := List.mem_map.1 member
    exact clear piece listed
  rw [segments, joinSegments, String.toList_ofList,
    List.splitOn_intercalate separator apart (by simpa using inhabited), List.map_map, same,
    List.map_id]

theorem joinSegments_inj {pieces others : List String} (inhabited : pieces ≠ [])
    (inhabitedOthers : others ≠ []) (clear : ∀ piece ∈ pieces, separator ∉ piece.toList)
    (clearOthers : ∀ piece ∈ others, separator ∉ piece.toList)
    (same : joinSegments separator pieces = joinSegments separator others) : pieces = others := by
  rw [← segments_joinSegments inhabited clear, same,
    segments_joinSegments inhabitedOthers clearOthers]

theorem joinSegments_cons (piece : String) {later : List String} (several : later ≠ []) :
    joinSegments separator (piece :: later) =
      piece ++ .ofList [separator] ++ joinSegments separator later := by
  rw [← String.toList_inj, joinSegments, List.map_cons,
    List.intercalate_cons_of_ne_nil (by simpa using several)]
  simp [joinSegments]

theorem append_joinSegments_cons (stem piece : String) (later : List String) :
    stem ++ joinSegments separator (piece :: later) =
      joinSegments separator ((stem ++ piece) :: later) := by
  cases later with
  | nil => simp [joinSegments]
  | cons next others =>
      rw [joinSegments_cons _ (List.cons_ne_nil _ _), joinSegments_cons _ (List.cons_ne_nil _ _),
        String.append_assoc, String.append_assoc, String.append_assoc]

/-- What stands before a separator and has none is the first piece. -/
theorem segments_append_separator {piece : String} (clear : separator ∉ piece.toList)
    (text : String) :
    segments separator (piece ++ .ofList [separator] ++ text) =
      piece :: segments separator text := by
  have chars : (piece ++ .ofList [separator] ++ text).toList =
      piece.toList ++ separator :: text.toList := by
    simp
  rw [segments, chars, List.splitOn_append_cons_self_of_not_mem clear, List.map_cons,
    String.ofList_toList, ← segments]

/-- A text after joined pieces continues the last one of them. -/
theorem segments_joinSegments_append (above : List String) (stem text : String)
    (clear : ∀ piece ∈ above, separator ∉ piece.toList) :
    segments separator (joinSegments separator (above ++ [stem]) ++ text) =
      above ++ segments separator (stem ++ text) := by
  induction above with
  | nil =>
      rw [List.nil_append, List.nil_append, joinSegments, List.map_singleton,
        List.intercalate_singleton, String.ofList_toList]
  | cons piece above ih =>
      have rest := ih fun other member => clear other (List.mem_cons_of_mem _ member)
      have several : above ++ [stem] ≠ [] := List.concat_ne_nil _ _
      have first : joinSegments separator (piece :: above ++ [stem]) ++ text =
          piece ++ .ofList [separator] ++ (joinSegments separator (above ++ [stem]) ++ text) := by
        rw [List.cons_append, joinSegments_cons piece several, String.append_assoc]
      rw [first, segments_append_separator (clear piece List.mem_cons_self), rest,
        List.cons_append]

/-- A text ends with another exactly when it is some text followed by that. -/
theorem endsWith_iff {text ending : String} :
    endsWith text ending = true ↔ ∃ stem, text = stem ++ ending := by
  constructor
  · intro ends
    obtain ⟨front, split⟩ := List.isSuffixOf_iff_suffix.1 ends
    refine ⟨.ofList front, ?_⟩
    rw [← String.toList_inj, String.toList_append, String.toList_ofList, split]
  · rintro ⟨stem, rfl⟩
    rw [endsWith, String.toList_append]
    exact List.isSuffixOf_iff_suffix.2 (List.suffix_append _ _)

/-- What a text ends with is what one of its pieces ends with, if it has no separator. -/
theorem exists_suffix_mem_splitOn {ending : List Char} (clear : separator ∉ ending)
    (front : List Char) : ∃ piece ∈ (front ++ ending).splitOn separator, ending <:+ piece := by
  induction front with
  | nil =>
      rw [List.nil_append, List.splitOn_eq_singleton clear]
      exact ⟨ending, List.mem_singleton_self _, List.suffix_refl _⟩
  | cons char front ih =>
      obtain ⟨piece, member, suffix⟩ := ih
      rw [List.cons_append, List.splitOn_cons_eq_if_modifyHead]
      split
      · exact ⟨piece, List.mem_cons_of_mem _ member, suffix⟩
      · obtain ⟨first, later, split⟩ :=
          List.exists_cons_of_ne_nil (List.splitOn_ne_nil separator (front ++ ending))
        rw [split] at member ⊢
        rw [List.modifyHead_cons]
        rcases List.mem_cons.1 member with rfl | inside
        · exact ⟨_, List.mem_cons_self, suffix.trans (List.suffix_cons _ _)⟩
        · exact ⟨piece, List.mem_cons_of_mem _ inside, suffix⟩

/-- Where a mark occurs that ends with the separator, a piece ends with the rest of the mark. -/
theorem exists_segment_endsWith {text : String} (ending : String)
    (clear : separator ∉ ending.toList)
    (occurs : ending.toList ++ [separator] <:+: text.toList) :
    ∃ piece ∈ segments separator text, endsWith piece ending = true := by
  obtain ⟨front, back, split⟩ := occurs
  obtain ⟨piece, member, suffix⟩ := exists_suffix_mem_splitOn clear front
  have cut : text.toList.splitOn separator =
      (front ++ ending.toList).splitOn separator ++ back.splitOn separator := by
    rw [← split, List.append_assoc, List.append_assoc, List.singleton_append,
      ← List.append_assoc, List.splitOn_append_cons_self]
  refine ⟨.ofList piece, List.mem_map_of_mem ?_, ?_⟩
  · rw [cut]
    exact List.mem_append_left _ member
  · rw [endsWith, String.toList_ofList]
    exact List.isSuffixOf_iff_suffix.2 suffix

/-- Nothing stands before a mark that does not occur. -/
theorem beforeLastMark_of_notInfix {mark chars : List Char} (absent : ¬mark <:+: chars) :
    beforeLastMark mark chars = none := by
  induction chars with
  | nil =>
      rw [beforeLastMark, if_neg]
      rintro rfl
      exact absent (List.infix_refl _)
  | cons char rest ih =>
      obtain ⟨notHere, notLater⟩ := not_or.1 (mt List.infix_cons_iff.2 absent)
      rw [beforeLastMark, ih notLater]
      exact if_neg (mt List.isPrefixOf_iff_prefix.1 notHere)

/-- What stands before the last occurrence of a mark is what stands before an occurrence after
which none begins. -/
theorem beforeLastMark_append {first : Char} {others : List Char} (front : List Char)
    {back : List Char} (last : ¬first :: others <:+: others ++ back) :
    beforeLastMark (first :: others) (front ++ first :: others ++ back) = some front := by
  induction front with
  | nil =>
      have here : (first :: others).isPrefixOf (first :: (others ++ back)) = true :=
        List.isPrefixOf_iff_prefix.2 (List.prefix_append (first :: others) back)
      rw [List.nil_append, List.cons_append, beforeLastMark, beforeLastMark_of_notInfix last]
      exact if_pos here
  | cons char front ih =>
      rw [List.cons_append, List.cons_append, beforeLastMark, ih]

end WordPackage.Text
