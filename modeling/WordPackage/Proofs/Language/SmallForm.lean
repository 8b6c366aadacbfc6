import WordPackage.Proofs.Language.Table

/-!
# Small letters outside ASCII

The table compares characters outside ASCII as they are. This is enough: whatever their small
letters are, even if these depend on the characters around them, a text that has one of them is
no key. Only the Kelvin sign has its small letter within ASCII.
-/

namespace WordPackage.Language

/-- Whether characters are a small form of a character: an ASCII character has its small letter,
the Kelvin sign has the letter `k`, and the form of any other character goes beyond ASCII and has
no separator. -/
def IsSmallChar (char : Char) (form : List Char) : Prop :=
  if char.toNat < 128 then form = [char.toLower]
  else if char = '\u212A' then form = ['k']
  else (∃ other ∈ form, 128 ≤ other.toNat) ∧ '-' ∉ form ∧ '_' ∉ form

/-- Whether characters are a small form of others: the small forms of these one after another,
which may depend on what stands around them. -/
inductive IsSmallForm : List Char → List Char → Prop where
  | nil : IsSmallForm [] []
  | cons {char : Char} {form rest restForm : List Char} (small : IsSmallChar char form)
      (later : IsSmallForm rest restForm) : IsSmallForm (char :: rest) (form ++ restForm)

/-- A character with hyphens for underscores. -/
def hyphenChar (char : Char) : Char :=
  if char = '_' then '-' else char

/-- An ASCII character is compared as its small letter with a hyphen for an underscore. -/
theorem hyphenChar_toLower {char : Char} (ascii : char.toNat < 128) :
    hyphenChar char.toLower = normalChar char := by
  have notKelvin : char ≠ '\u212A' := by
    rintro rfl
    exact absurd ascii (by decide)
  rcases Text.toLower_cases char with ⟨same, -⟩ | ⟨shifted, least, greatest⟩
  · simp [hyphenChar, normalChar, lowerChar, same, notKelvin]
  · obtain ⟨capital, small⟩ := ne_of_capital shifted least greatest
    simp [hyphenChar, normalChar, lowerChar, capital, small]

theorem normalChar_of_not_ascii {char : Char} (outside : 128 ≤ char.toNat)
    (other : char ≠ '\u212A') : normalChar char = char := by
  have notMark : char ≠ '_' := by
    rintro rfl
    exact absurd outside (by decide)
  rcases Text.toLower_cases char with ⟨same, -⟩ | ⟨-, -, greatest⟩
  · rw [normalChar, if_neg notMark, lowerChar, if_neg other, same]
  · exact absurd (outside.trans greatest) (by decide)

/-- Whether some character is outside ASCII. -/
def GoesBeyondAscii (chars : List Char) : Prop :=
  ∃ char ∈ chars, 128 ≤ char.toNat

/-- Whether characters are the same, or none of them are a key. -/
def AreAlike (shown compared : List Char) : Prop :=
  shown = compared ∨ GoesBeyondAscii shown ∧ GoesBeyondAscii compared

/-- Characters that are alike up to a hyphen are so behind another character. -/
theorem AreAlike.cons {shown compared : List Char}
    (alike : AreAlike (shown.takeWhile (· != '-')) (compared.takeWhile (· != '-'))) (char : Char) :
    AreAlike ((char :: shown).takeWhile (· != '-')) ((char :: compared).takeWhile (· != '-')) := by
  by_cases hyphen : char = '-'
  · exact .inl (by simp [hyphen])
  · have passes : (char != '-') = true := bne_iff_ne.2 hyphen
    rw [List.takeWhile_cons_of_pos (by exact passes), List.takeWhile_cons_of_pos (by exact passes)]
    rcases alike with equal | ⟨⟨left, member, far⟩, right, member', far'⟩
    · exact .inl (congrArg _ equal)
    · exact .inr ⟨⟨left, List.mem_cons_of_mem _ member, far⟩,
        right, List.mem_cons_of_mem _ member', far'⟩

/-- Up to the first hyphen a small form is what the table compares, or neither is a key. -/
theorem IsSmallForm.areAlike {chars form : List Char} (small : IsSmallForm chars form) :
    AreAlike ((form.map hyphenChar).takeWhile (· != '-'))
      ((chars.map normalChar).takeWhile (· != '-')) := by
  induction small with
  | nil => exact .inl rfl
  | @cons char form rest restForm small later ih =>
      rw [List.map_cons, List.map_append]
      unfold IsSmallChar at small
      split at small
      · rename_i ascii
        rw [small, ← hyphenChar_toLower ascii]
        exact ih.cons _
      · rename_i outside
        split at small
        · rename_i kelvin
          rw [small, kelvin]
          exact ih.cons 'k'
        · -- The form goes beyond ASCII, and so does the character, which is compared as it is.
          rename_i other
          obtain ⟨⟨beyond, member, far⟩, noHyphen, noMark⟩ := small
          have kept : form.map hyphenChar = form := by
            refine (List.map_congr_left fun letter inside => ?_).trans (List.map_id form)
            exact if_neg (ne_of_mem_of_not_mem inside noMark)
          have passed : ∀ letter ∈ form, (letter != '-') = true := fun letter inside =>
            bne_iff_ne.2 (ne_of_mem_of_not_mem inside noHyphen)
          have passes : (char != '-') = true := by
            refine bne_iff_ne.2 ?_
            rintro rfl
            exact outside (by decide)
          have far' : 128 ≤ char.toNat := Nat.le_of_not_lt outside
          rw [kept, List.takeWhile_append_of_pos passed, normalChar_of_not_ascii far' other,
            List.takeWhile_cons_of_pos (by exact passes)]
          exact .inr ⟨⟨beyond, List.mem_append_left _ member, far⟩,
            char, List.mem_cons_self, far'⟩

/-- However the characters outside ASCII are put in small letters, a tag is recognized alike. -/
theorem canonicalize_eq_of_isSmallForm {tag : String} {form : List Char}
    (small : IsSmallForm (Text.trimBlanks tag.toList) form) :
    canonicalize tag = (recognize (.ofList (form.map hyphenChar))).map code := by
  have shown : (primary (.ofList (form.map hyphenChar))).toList
      = (form.map hyphenChar).takeWhile (· != '-') := by
    rw [primary, String.toList_ofList, String.toList_ofList]
  rw [canonicalize_eq, recognize_eq]
  rcases small.areAlike with same | ⟨⟨char, member, far⟩, char', member', far'⟩
  · rw [← toList_primary_normalize, ← shown] at same
    rw [String.toList_inj.1 same]
  · rw [← shown] at member
    rw [← toList_primary_normalize] at member'
    rw [find?_of_not_ascii member far, find?_of_not_ascii member' far']

end WordPackage.Language
