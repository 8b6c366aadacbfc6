import WordPackage.Proofs.Markup.WrittenTag

/-!
# Names and characters of XML

The productions `Char` and `Name` of XML 1.0, as ranges of code points. A name of XML
holds none of the characters that structure a tag, so it is read back as it is written.
-/

namespace WordPackage.Markup

/-- Whether the code point of a character lies in one of the ranges. -/
def inRanges (ranges : List (Nat × Nat)) (char : Char) : Bool :=
  ranges.any fun range => range.1 ≤ char.toNat && char.toNat ≤ range.2

/-- What lies in ranges lies in ranges that cover them. -/
theorem inRanges_of_covered {inner outer : List (Nat × Nat)}
    (covered : ∀ range ∈ inner, ∃ wider ∈ outer, wider.1 ≤ range.1 ∧ range.2 ≤ wider.2)
    {char : Char} (inside : inRanges inner char = true) : inRanges outer char = true := by
  obtain ⟨range, listed, within⟩ := List.any_eq_true.1 inside
  obtain ⟨wider, wide, below, above⟩ := covered range listed
  simp only [Bool.and_eq_true, decide_eq_true_eq] at within
  refine List.any_eq_true.2 ⟨wider, wide, ?_⟩
  simp only [Bool.and_eq_true, decide_eq_true_eq]
  exact ⟨Nat.le_trans below within.1, Nat.le_trans within.2 above⟩

/-- The code points of the production `Char`. -/
def charRanges : List (Nat × Nat) :=
  [(0x9, 0xA), (0xD, 0xD), (0x20, 0xD7FF), (0xE000, 0xFFFD), (0x10000, 0x10FFFF)]

/-- The code points of the production `NameStartChar`. -/
def nameStartRanges : List (Nat × Nat) :=
  [(0x3A, 0x3A), (0x41, 0x5A), (0x5F, 0x5F), (0x61, 0x7A), (0xC0, 0xD6), (0xD8, 0xF6),
    (0xF8, 0x2FF), (0x370, 0x37D), (0x37F, 0x1FFF), (0x200C, 0x200D), (0x2070, 0x218F),
    (0x2C00, 0x2FEF), (0x3001, 0xD7FF), (0xF900, 0xFDCF), (0xFDF0, 0xFFFD), (0x10000, 0xEFFFF)]

/-- The code points of the production `NameChar`. -/
def nameRanges : List (Nat × Nat) :=
  nameStartRanges
    ++ [(0x2D, 0x2E), (0x30, 0x39), (0xB7, 0xB7), (0x300, 0x36F), (0x203F, 0x2040)]

/-- Whether a character may stand in a document of XML. -/
def isXmlChar (char : Char) : Bool :=
  inRanges charRanges char

/-- Whether a name matches the production `Name`. -/
def IsXmlName (name : String) : Prop :=
  (name.toList.head?.any (inRanges nameStartRanges)) = true ∧
    ∀ char ∈ name.toList, inRanges nameRanges char = true

instance (name : String) : Decidable (IsXmlName name) :=
  have := List.decidableBAll (fun char => inRanges nameRanges char = true) name.toList
  inferInstanceAs (Decidable (_ ∧ _))

/-- No character that structures a tag stands in a name. -/
theorem isNameChar_of_inRanges {char : Char} (inside : inRanges nameRanges char = true) :
    isNameChar char = true := by
  have outside : ∀ mark ∈ [' ', '\t', '\r', '\n', '=', '<', '>', '/', '\'', '"', '!', '?'],
      ¬inRanges nameRanges mark = true := List.any_eq_false.1 (by decide)
  have apart : ∀ mark ∈ [' ', '\t', '\r', '\n', '=', '<', '>', '/', '\'', '"', '!', '?'],
      char ≠ mark := by
    rintro mark listed rfl
    exact outside char listed inside
  simp only [List.forall_mem_cons] at apart
  simp [isNameChar, isSpace, apart]

theorem isXmlChar_of_inRanges {char : Char} (inside : inRanges nameRanges char = true) :
    isXmlChar char = true :=
  inRanges_of_covered (by decide) inside

theorem IsXmlName.isName {name : String} (isXmlName : IsXmlName name) : IsName name.toList := by
  constructor
  · intro none
    rw [IsXmlName, none] at isXmlName
    exact absurd isXmlName.1 (by simp)
  · exact fun char member => isNameChar_of_inRanges (isXmlName.2 char member)

end WordPackage.Markup
