import WordPackage.Markup.Layout
import WordPackage.Proofs.Text.Segments

/-!
# Escaped texts

What a text or an attribute value looks like in a written document. Five
characters stand there as entities. A text without them is written as it is, no
other text is, and no two texts are written alike.
-/

namespace WordPackage.Markup

/-- Whether a character is written as an entity. -/
def isSpecial (char : Char) : Bool :=
  char = '<' || char = '>' || char = '&' || char = '\'' || char = '"'

/-- A text as it stands in a written document. -/
def escaped (text : String) : String :=
  .ofList (escape text.toList)

/-- A text that is written as it is: none of its characters becomes an entity. -/
def IsLiteral (text : String) : Prop :=
  ∀ char ∈ text.toList, isSpecial char = false

instance (text : String) : Decidable (IsLiteral text) :=
  List.decidableBAll (fun char => isSpecial char = false) text.toList

@[simp] theorem toList_escaped (text : String) :
    (escaped text).toList = escape text.toList :=
  String.toList_ofList

@[simp] theorem escape_nil : escape [] = [] := rfl

@[simp] theorem escape_cons (char : Char) (chars : List Char) :
    escape (char :: chars) = escapeChar char ++ escape chars := rfl

theorem escapeChar_of_not_special {char : Char} (plain : isSpecial char = false) :
    escapeChar char = [char] := by
  simp only [isSpecial, Bool.or_eq_false_iff, decide_eq_false_iff_not] at plain
  obtain ⟨⟨⟨⟨notLess, notGreater⟩, notAmp⟩, notApos⟩, notQuote⟩ := plain
  simp [escapeChar, notLess, notGreater, notAmp, notApos, notQuote]

theorem eq_of_isSpecial {char : Char} (special : ¬isSpecial char = false) :
    char = '<' ∨ char = '>' ∨ char = '&' ∨ char = '\'' ∨ char = '"' := by
  simpa only [isSpecial, Bool.not_eq_false, Bool.or_eq_true, decide_eq_true_eq, or_assoc]
    using special

theorem length_escapeChar_of_special {char : Char} (special : ¬isSpecial char = false) :
    1 < (escapeChar char).length := by
  rcases eq_of_isSpecial special with rfl | rfl | rfl | rfl | rfl <;> decide

/-- Of the special characters only the ampersand of entities is left in a written text. -/
theorem eq_amp_of_mem_escape {mark : Char} {chars : List Char}
    (member : mark ∈ escape chars) (special : isSpecial mark = true) : mark = '&' := by
  obtain ⟨char, -, written⟩ := List.mem_flatMap.1 member
  by_cases plain : isSpecial char = false
  · rw [escapeChar_of_not_special plain, List.mem_singleton] at written
    rw [written, plain] at special
    cases special
  · have others : ((escapeChar char).all fun mark => !isSpecial mark || mark = '&') = true := by
      rcases eq_of_isSpecial plain with rfl | rfl | rfl | rfl | rfl <;> decide
    simpa [special] using List.all_eq_true.1 others mark written

theorem quote_notMem_escape (chars : List Char) : '"' ∉ escape chars := fun member =>
  absurd (eq_amp_of_mem_escape member rfl) (by decide)

theorem less_notMem_escape (chars : List Char) : '<' ∉ escape chars := fun member =>
  absurd (eq_amp_of_mem_escape member rfl) (by decide)

theorem greater_notMem_escape (chars : List Char) : '>' ∉ escape chars := fun member =>
  absurd (eq_amp_of_mem_escape member rfl) (by decide)

/-- Writing does not shorten a text. -/
theorem length_le_length_escape (chars : List Char) : chars.length ≤ (escape chars).length := by
  induction chars with
  | nil => exact Nat.le_refl _
  | cons char rest ih =>
      have atLeast : 1 ≤ (escapeChar char).length := by
        by_cases plain : isSpecial char = false
        · rw [escapeChar_of_not_special plain]
          exact Nat.le_refl _
        · exact Nat.le_of_lt (length_escapeChar_of_special plain)
      rw [escape_cons, List.length_append, List.length_cons]
      omega

/-- A text is written as it is exactly when none of its characters is special. -/
theorem escape_eq_self_iff {chars : List Char} :
    escape chars = chars ↔ ∀ char ∈ chars, isSpecial char = false := by
  induction chars with
  | nil => simp
  | cons char rest ih =>
      by_cases plain : isSpecial char = false
      · simp [escapeChar_of_not_special plain, plain, ih]
      · -- An entity makes the written text longer, whatever follows it.
        have entity := length_escapeChar_of_special plain
        have longer := length_le_length_escape rest
        constructor
        · intro same
          have lengths := congrArg List.length same
          rw [escape_cons, List.length_append, List.length_cons] at lengths
          omega
        · intro allPlain
          exact absurd (allPlain char List.mem_cons_self) plain

theorem escaped_eq_self_iff {text : String} : escaped text = text ↔ IsLiteral text := by
  rw [← String.toList_inj, toList_escaped]
  exact escape_eq_self_iff

theorem IsLiteral.escaped_eq {text : String} (literal : IsLiteral text) : escaped text = text :=
  escaped_eq_self_iff.2 literal

theorem IsLiteral.of_spelled {text : String} {chars : List Char} (spelled : text = .ofList chars)
    (plain : chars.any isSpecial = false) : IsLiteral text := by
  rw [spelled, IsLiteral, String.toList_ofList]
  exact fun char member => eq_false_of_ne_true (List.any_eq_false.1 plain char member)

/-- What starts with a written character starts with no other one. -/
theorem escapeChar_append_inj {left right : Char} {leftRest rightRest : List Char}
    (same : escapeChar left ++ leftRest = escapeChar right ++ rightRest) :
    left = right ∧ leftRest = rightRest := by
  by_cases plainLeft : isSpecial left = false <;> by_cases plainRight : isSpecial right = false
  · simpa [escapeChar_of_not_special plainLeft, escapeChar_of_not_special plainRight] using same
  · -- An entity starts with an ampersand, and no plain character is one.
    rw [escapeChar_of_not_special plainLeft] at same
    rcases eq_of_isSpecial plainRight with rfl | rfl | rfl | rfl | rfl <;>
      exact absurd ((List.cons.inj same).1 ▸ plainLeft) (by decide)
  · rw [escapeChar_of_not_special plainRight] at same
    rcases eq_of_isSpecial plainLeft with rfl | rfl | rfl | rfl | rfl <;>
      exact absurd ((List.cons.inj same).1 ▸ plainRight) (by decide)
  · rcases eq_of_isSpecial plainLeft with rfl | rfl | rfl | rfl | rfl <;>
      rcases eq_of_isSpecial plainRight with rfl | rfl | rfl | rfl | rfl <;>
      simp [escapeChar] at same <;> exact ⟨rfl, same⟩

/-- No two texts are written alike. -/
theorem escape_injective : Function.Injective escape := by
  intro left
  induction left with
  | nil =>
      intro right same
      have longer := length_le_length_escape right
      rw [← same, escape_nil, List.length_nil] at longer
      exact (List.eq_nil_of_length_eq_zero (Nat.le_zero.1 longer)).symm
  | cons char rest ih =>
      intro right same
      cases right with
      | nil =>
          have longer := length_le_length_escape (char :: rest)
          rw [same, escape_nil, List.length_cons, List.length_nil] at longer
          omega
      | cons other rest' =>
          obtain ⟨rfl, tails⟩ := escapeChar_append_inj same
          rw [ih tails]

theorem escaped_injective : Function.Injective escaped := by
  intro left right same
  rw [← String.toList_inj, toList_escaped, toList_escaped] at same
  exact String.toList_inj.1 (escape_injective same)

/-- Whether a character is written as it is and occurs in no entity. -/
def IsSeparator (char : Char) : Prop :=
  isSpecial char = false ∧ ∀ special, isSpecial special = true → char ∉ escapeChar special

theorem IsSeparator.of_entities {char : Char} (plain : isSpecial char = false)
    (foreign : char ∉ escape ['<', '>', '&', '\'', '"']) : IsSeparator char := by
  refine ⟨plain, fun special entity member => foreign (List.mem_flatMap.2 ⟨special, ?_, member⟩)⟩
  simpa using eq_of_isSpecial (by simp [entity])

theorem isSeparator_dot : IsSeparator '.' := .of_entities rfl (by decide)

theorem isSeparator_slash : IsSeparator '/' := .of_entities rfl (by decide)

namespace IsSeparator

variable {separator : Char} (separates : IsSeparator separator)
include separates

theorem eq_of_mem_escapeChar {char : Char} (member : separator ∈ escapeChar char) :
    separator = char := by
  by_cases plain : isSpecial char = false
  · rw [escapeChar_of_not_special plain, List.mem_singleton] at member
    exact member
  · exact absurd member (separates.2 char (eq_true_of_ne_false plain))

/-- Separators occur in a written text as they occur in the text. -/
theorem mem_escape_iff {chars : List Char} : separator ∈ escape chars ↔ separator ∈ chars := by
  rw [escape, List.mem_flatMap]
  constructor
  · rintro ⟨char, member, written⟩
    rw [separates.eq_of_mem_escapeChar written]
    exact member
  · intro member
    refine ⟨separator, member, ?_⟩
    rw [escapeChar_of_not_special separates.1]
    exact List.mem_singleton_self separator

/-- A written text starts with a separator where the text does. -/
theorem head?_escape_iff {chars : List Char} :
    (escape chars).head? = some separator ↔ chars.head? = some separator := by
  cases chars with
  | nil => rfl
  | cons char rest =>
      by_cases plain : isSpecial char = false
      · rw [escape_cons, escapeChar_of_not_special plain]
        rfl
      · -- An entity starts with an ampersand, and no separator is special.
        obtain ⟨rest', entity⟩ : ∃ rest', escape (char :: rest) = '&' :: rest' := by
          rcases eq_of_isSpecial plain with rfl | rfl | rfl | rfl | rfl <;> exact ⟨_, rfl⟩
        rw [entity, List.head?_cons, List.head?_cons, Option.some.injEq, Option.some.injEq]
        constructor
        · rintro rfl
          exact absurd separates.1 (by decide)
        · rintro rfl
          exact absurd separates.1 plain

/-- What follows the last separator of a written text is written for what follows that of the
text. -/
theorem afterLast?_escaped (text : String) :
    Text.afterLast? separator (escaped text) = (Text.afterLast? separator text).map escaped := by
  by_cases member : separator ∈ text.toList
  · obtain ⟨front, back, split, last, found⟩ := Text.exists_afterLast?_of_mem member
    have written : (escaped text).toList = escape front ++ separator :: escape back := by
      rw [toList_escaped, split, escape_append, escape_cons,
        escapeChar_of_not_special separates.1, List.singleton_append]
    rw [found, Text.afterLast?_of_append written (mt separates.mem_escape_iff.1 last),
      Option.map_some, escaped, String.toList_ofList]
  · have absent : separator ∉ (escaped text).toList := by
      rw [toList_escaped]
      exact mt separates.mem_escape_iff.1 member
    rw [Text.afterLast?_of_notMem member, Text.afterLast?_of_notMem absent, Option.map_none]

end IsSeparator

theorem not_special_of_le {char : Char} (fromCapitals : 'A'.val.toNat ≤ char.val.toNat) :
    isSpecial char = false := by
  by_cases plain : isSpecial char = false
  · exact plain
  · rcases eq_of_isSpecial plain with rfl | rfl | rfl | rfl | rfl <;>
      exact absurd fromCapitals (by decide)

theorem isSpecial_toLower (char : Char) : isSpecial char.toLower = isSpecial char := by
  rcases Text.toLower_cases char with ⟨kept, -⟩ | ⟨shifted, least, -⟩
  · rw [kept]
  · rw [not_special_of_le least, not_special_of_le]
    rw [shifted]
    exact Nat.le_add_right_of_le least

/-- Small letters for capitals: before or after writing, the outcome is the same. -/
theorem map_toLower_escape (chars : List Char) :
    (escape chars).map Char.toLower = escape (chars.map Char.toLower) := by
  induction chars with
  | nil => rfl
  | cons char rest ih =>
      rw [escape_cons, List.map_append, ih, List.map_cons, escape_cons]
      congr 1
      by_cases plain : isSpecial char = false
      · rw [escapeChar_of_not_special plain,
          escapeChar_of_not_special (isSpecial_toLower char ▸ plain), List.map_singleton]
      · rcases eq_of_isSpecial plain with rfl | rfl | rfl | rfl | rfl <;> decide

theorem foldAscii_escaped (text : String) :
    Text.foldAscii (escaped text) = escaped (Text.foldAscii text) := by
  rw [← String.toList_inj]
  simp [map_toLower_escape]

end WordPackage.Markup
