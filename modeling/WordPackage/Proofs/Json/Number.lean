import WordPackage.Proofs.Json.Layout

/-!
# Numbers of JSON

The grammar of numbers, and that a number is skipped as a whole. A number extends as far as it can,
so what follows it must be no part of a number.
-/

namespace WordPackage.Json

/-- One digit or more. -/
structure AreDigits (chars : List Char) : Prop where
  nonempty : chars ≠ []
  digits : ∀ char ∈ chars, char.isDigit = true

instance (chars : List Char) : Decidable (AreDigits chars) :=
  decidable_of_iff (chars ≠ [] ∧ chars.all Char.isDigit = true)
    ⟨fun ⟨nonempty, digits⟩ => ⟨nonempty, List.all_eq_true.1 digits⟩,
      fun ⟨nonempty, digits⟩ => ⟨nonempty, List.all_eq_true.2 digits⟩⟩

/-- The integer at the beginning of a number: no zero stands before another digit. -/
def IsInteger (chars : List Char) : Prop :=
  chars = ['0'] ∨ AreDigits chars ∧ chars.head? ≠ some '0'

/-- The fraction of a number, which may be missing. -/
def IsFraction (chars : List Char) : Prop :=
  chars = [] ∨ ∃ digits, AreDigits digits ∧ chars = '.' :: digits

/-- The exponent of a number, which may be missing. -/
def IsExponent (chars : List Char) : Prop :=
  chars = [] ∨ ∃ letter sign digits, (letter = 'e' ∨ letter = 'E') ∧
    (sign = [] ∨ sign = ['+'] ∨ sign = ['-']) ∧ AreDigits digits ∧
      chars = letter :: (sign ++ digits)

/-- The tokens that are numbers. -/
inductive IsNumber : Token → Prop where
  | intro {sign integer fraction exponent : List Char} (isSign : sign = [] ∨ sign = ['-'])
      (isInteger : IsInteger integer) (isFraction : IsFraction fraction)
      (isExponent : IsExponent exponent) :
      IsNumber (sign ++ (integer ++ (fraction ++ exponent)))

/-- Whether no number goes on here. -/
def EndsNumber (chars : List Char) : Prop :=
  ∀ char ∈ chars.head?, char.isDigit = false ∧ char ≠ '.' ∧ char ≠ 'e' ∧ char ≠ 'E'

/-- Digits are passed over up to what is none. -/
theorem dropWhile_digits {digits rest : List Char} (all : ∀ char ∈ digits, char.isDigit = true)
    (stops : ∀ char ∈ rest.head?, char.isDigit = false) :
    (digits ++ rest).dropWhile Char.isDigit = rest := by
  rw [List.dropWhile_append_of_pos all]
  cases rest with
  | nil => rfl
  | cons char later =>
      rw [List.dropWhile_cons_of_neg]
      rw [stops char rfl]
      exact Bool.false_ne_true

/-- No letter and no sign of an exponent is a digit. -/
theorem AreDigits.exists_cons {digits : List Char} (are : AreDigits digits) :
    ∃ digit later, digits = digit :: later ∧ digit.isDigit = true ∧
      ∀ char ∈ later, char.isDigit = true := by
  obtain ⟨nonempty, all⟩ := are
  cases digits with
  | nil => exact absurd rfl nonempty
  | cons digit later =>
      exact ⟨digit, later, rfl, all digit List.mem_cons_self,
        fun char member => all char (List.mem_cons_of_mem _ member)⟩

/-- An exponent is skipped. -/
theorem skipScale_eq {exponent rest : List Char} (isExponent : IsExponent exponent)
    (stops : EndsNumber rest) : skipScale (exponent ++ rest) = .ok rest := by
  rcases isExponent with rfl | ⟨letter, sign, digits, isLetter, isSign, are, rfl⟩
  · rw [List.nil_append]
    unfold skipScale
    split
    · exact absurd rfl (stops _ rfl).2.2.1
    · exact absurd rfl (stops _ rfl).2.2.2
    · rfl
  · obtain ⟨digit, later, rfl, isDigit, all⟩ := are.exists_cons
    have dropped := dropWhile_digits all fun char first => (stops char first).1
    have skips : skipExponent (sign ++ (digit :: later ++ rest)) = .ok rest := by
      rcases isSign with rfl | rfl | rfl
      · have noPlus : digit ≠ '+' := by
          rintro rfl
          cases isDigit
        have noMinus : digit ≠ '-' := by
          rintro rfl
          cases isDigit
        simp [skipExponent, noPlus, noMinus, isDigit, dropped]
      · simp [skipExponent, isDigit, dropped]
      · simp [skipExponent, isDigit, dropped]
    rw [List.cons_append, List.append_assoc]
    rcases isLetter with rfl | rfl
    · exact skips
    · exact skips

/-- An exponent does not begin like a fraction. -/
theorem IsExponent.head? {exponent rest : List Char} (isExponent : IsExponent exponent)
    (stops : EndsNumber rest) :
    ∀ char ∈ (exponent ++ rest).head?, char.isDigit = false ∧ char ≠ '.' := by
  rcases isExponent with rfl | ⟨letter, sign, digits, rfl | rfl, -, -, rfl⟩
  · intro char first
    exact ⟨(stops char first).1, (stops char first).2.1⟩
  · rintro char ⟨⟩
    decide
  · rintro char ⟨⟩
    decide

/-- A fraction and an exponent are skipped. -/
theorem skipFraction_eq {fraction exponent rest : List Char} (isFraction : IsFraction fraction)
    (isExponent : IsExponent exponent) (stops : EndsNumber rest) :
    skipFraction (fraction ++ (exponent ++ rest)) = .ok rest := by
  have first := isExponent.head? stops
  rcases isFraction with rfl | ⟨digits, are, rfl⟩
  · rw [List.nil_append]
    unfold skipFraction
    split
    · rename_i begins
      exact absurd rfl (first '.' (by rw [begins]; rfl)).2
    · rename_i begins
      exact absurd rfl (first '.' (by rw [begins]; rfl)).2
    · exact skipScale_eq isExponent stops
  · obtain ⟨digit, later, rfl, isDigit, all⟩ := are.exists_cons
    have dropped := dropWhile_digits all fun char begins => (first char begins).1
    rw [List.cons_append, List.cons_append, skipFraction, if_pos isDigit, dropped,
      skipScale_eq isExponent stops]

theorem IsFraction.head? {fraction exponent rest : List Char} (isFraction : IsFraction fraction)
    (isExponent : IsExponent exponent) (stops : EndsNumber rest) :
    ∀ char ∈ (fraction ++ (exponent ++ rest)).head?, char.isDigit = false := by
  rcases isFraction with rfl | ⟨digits, -, rfl⟩
  · intro char first
    exact (isExponent.head? stops char first).1
  · rintro char ⟨⟩
    decide

/-- A number without a sign is skipped. -/
theorem skipNumber_eq {integer fraction exponent rest : List Char} (isInteger : IsInteger integer)
    (isFraction : IsFraction fraction) (isExponent : IsExponent exponent)
    (stops : EndsNumber rest) :
    skipNumber (integer ++ (fraction ++ (exponent ++ rest))) = .ok rest := by
  have behind := isFraction.head? isExponent stops
  have skips := skipFraction_eq isFraction isExponent stops
  rcases isInteger with rfl | ⟨are, noZero⟩
  · have single : ((fraction ++ (exponent ++ rest)).head?.any Char.isDigit) = false := by
      cases first : (fraction ++ (exponent ++ rest)).head? with
      | none => rfl
      | some char => exact behind char first
    rw [List.singleton_append, skipNumber, single]
    exact skips
  · obtain ⟨digit, later, rfl, isDigit, all⟩ := are.exists_cons
    have apart : digit ≠ '0' := fun zero => noZero (congrArg some zero)
    rw [List.cons_append, skipNumber]
    · rw [if_pos isDigit, dropWhile_digits all behind, skips]
    · exact apart

end WordPackage.Json
