import WordPackage.Text.Segments

/-!
# Last segments and letter case

What stands after the last separator of a text is what the text ends with and has no separator
itself. Small letters are put for capitals character by character; what has no capital is left
as it is, so that doing so once is enough.
-/

namespace WordPackage.Text

/-- A character is kept, or it is a capital and its small letter stands 32 places behind it. -/
theorem toLower_cases (char : Char) :
    (char.toLower = char ∧ ¬('A'.val.toNat ≤ char.val.toNat ∧ char.val.toNat ≤ 'Z'.val.toNat)) ∨
    (char.toLower.val.toNat = char.val.toNat + 32 ∧
      'A'.val.toNat ≤ char.val.toNat ∧ char.val.toNat ≤ 'Z'.val.toNat) := by
  unfold Char.toLower
  split
  · rename_i capital
    refine .inr ⟨?_, capital⟩
    have room : char.val.toNat + 32 < 2 ^ 32 :=
      Nat.lt_of_le_of_lt (Nat.add_le_add_right capital.2 32) (by decide)
    exact (UInt32.toNat_add _ _).trans (Nat.mod_eq_of_lt room)
  · rename_i other
    exact .inl ⟨rfl, other⟩

theorem toLower_toLower (char : Char) : char.toLower.toLower = char.toLower := by
  rcases toLower_cases char with ⟨kept, -⟩ | ⟨shifted, least, -⟩
  · rw [kept, kept]
  · rcases toLower_cases char.toLower with ⟨kept, -⟩ | ⟨-, -, greatest⟩
    · exact kept
    · have behind : 'Z'.val.toNat < 'A'.val.toNat + 32 := by decide
      omega

@[simp] theorem foldAscii_foldAscii (text : String) :
    foldAscii (foldAscii text) = foldAscii text := by
  rw [← String.toList_inj, toList_foldAscii, toList_foldAscii, List.map_map]
  exact List.map_congr_left fun char _ => toLower_toLower char

theorem eq_dot_of_toLower {char : Char} (dot : char.toLower = '.') : char = '.' := by
  rcases toLower_cases char with ⟨kept, -⟩ | ⟨shifted, least, -⟩
  · rw [← kept, dot]
  · have before : '.'.val.toNat < 'A'.val.toNat + 32 := by decide
    rw [dot] at shifted
    omega

/-- What follows a separator is what follows the last one if it has none. -/
theorem afterLast?_of_append {separator : Char} {text : String} {front back : List Char}
    (split : text.toList = front ++ separator :: back) (last : separator ∉ back) :
    afterLast? separator text = some (.ofList back) := by
  have member : separator ∈ text.toList := by
    rw [split]
    exact List.mem_append_right _ List.mem_cons_self
  have apart : ∀ char ∈ back.reverse, (char != separator) = true := by
    intro char inside
    refine bne_iff_ne.2 ?_
    rintro rfl
    exact last (List.mem_reverse.1 inside)
  rw [afterLast?, if_pos member, split, List.reverse_append, List.reverse_cons, List.append_assoc,
    List.takeWhile_append_of_pos apart]
  simp

/-- A text with a separator ends with one and with what follows it. -/
theorem exists_afterLast?_of_mem {separator : Char} {text : String}
    (member : separator ∈ text.toList) :
    ∃ front back, text.toList = front ++ separator :: back ∧ separator ∉ back ∧
      afterLast? separator text = some (.ofList back) := by
  obtain ⟨back, front, split, last⟩ := List.eq_append_cons_of_mem (List.mem_reverse.2 member)
  have turned : text.toList = front.reverse ++ separator :: back.reverse := by
    rw [← List.reverse_reverse text.toList, split]
    simp
  have clear : separator ∉ back.reverse := mt List.mem_reverse.1 last
  exact ⟨front.reverse, back.reverse, turned, clear, afterLast?_of_append turned clear⟩

theorem afterLast?_of_notMem {separator : Char} {text : String}
    (absent : separator ∉ text.toList) : afterLast? separator text = none :=
  if_neg absent

/-- A text that ends with a dot and an extension without one, whatever the ASCII case, has that
extension. -/
theorem exists_afterLast?_of_endsWith {text : String} (extension : String)
    (plain : '.' ∉ extension.toList)
    (ending : endsWith (foldAscii text) ("." ++ extension) = true) :
    ∃ last, afterLast? '.' text = some last ∧ foldAscii last = extension := by
  obtain ⟨front, split⟩ := List.isSuffixOf_iff_suffix.1 ending
  have dotted : ("." ++ extension).toList = '.' :: extension.toList := String.toList_append
  rw [toList_foldAscii, dotted] at split
  obtain ⟨start, rest, chars, -, folded⟩ := List.map_eq_append_iff.1 split.symm
  obtain ⟨dot, last, rfl, isDot, small⟩ := List.map_eq_cons_iff.1 folded
  obtain rfl := eq_dot_of_toLower isDot
  have noDot : '.' ∉ last := by
    intro member
    refine plain ?_
    rw [← small]
    exact List.mem_map.2 ⟨'.', member, rfl⟩
  refine ⟨.ofList last, afterLast?_of_append chars noDot, ?_⟩
  rw [foldAscii, String.toList_ofList, small, String.ofList_toList]

end WordPackage.Text
