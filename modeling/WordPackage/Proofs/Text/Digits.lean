import Mathlib.Algebra.Group.Nat.Defs
import Mathlib.Data.List.Basic
import Mathlib.Data.Nat.Init
import WordPackage.Text.Digits

/-!
# Numbers of a fixed width

A padded number has its width unless it is too large for it, and stands for the number. Two
texts that begin with padded numbers of one width are in the order of the numbers, and in the
order of what follows where the numbers are the same.
-/

namespace WordPackage.Text

theorem length_padded {digits number : Nat} (wide : 0 < digits) (fits : number < 10 ^ digits) :
    (padded digits number).length = digits := by
  have shown := (Nat.length_toDigits_le_iff (by decide) wide).2 fits
  rw [padded, List.length_append, List.length_replicate, Nat.sub_add_cancel shown]

theorem isDigit_of_mem_padded {digits number : Nat} {char : Char}
    (member : char ∈ padded digits number) : char.isDigit = true := by
  rcases List.mem_append.1 member with zero | digit
  · rw [List.eq_of_mem_replicate zero]
    rfl
  · exact Nat.isDigit_of_mem_toDigits (by decide) (by decide) digit

/-- A padded number stands for the number. -/
theorem number?_padded (digits number : Nat) : number? (padded digits number) = some number := by
  have written : padded digits number ≠ [] := by
    have shown := Nat.length_toDigits_pos (b := 10) (n := number)
    rw [padded, Ne, List.append_eq_nil_iff, ← List.length_eq_zero_iff (l := Nat.toDigits 10 number)]
    omega
  have digit : (padded digits number).all Char.isDigit = true :=
    List.all_eq_true.2 fun _ member => isDigit_of_mem_padded member
  have zeros : ∀ count, (List.replicate count '0').foldl
      (fun number digit => number * 10 + (digit.toNat - '0'.toNat)) 0 = 0 := by
    intro count
    induction count with
    | zero => rfl
    | succ count ih => exact ih
  have value : (Nat.toDigits 10 number).foldl
      (fun number digit => number * 10 + (digit.toNat - '0'.toNat)) 0 = number := by
    simpa only [Nat.ofDigitChars, Nat.mul_comm] using
      Nat.ofDigitChars_toDigits (b := 10) (n := number) (by decide) (by decide)
  rw [number?, if_pos ⟨written, digit⟩, padded, List.foldl_append, zeros, value]

theorem exists_two_digits {number : Nat} (fits : number < 10 ^ 2) :
    ∃ tens ones, padded 2 number = [tens, ones] ∧ number? [tens, ones] = some number := by
  obtain ⟨tens, ones, shape⟩ := List.length_eq_two.1 (length_padded (by decide) fits)
  exact ⟨tens, ones, shape, shape ▸ number?_padded 2 number⟩

theorem exists_four_digits {number : Nat} (fits : number < 10 ^ 4) :
    ∃ thousands hundreds tens ones, padded 4 number = [thousands, hundreds, tens, ones] ∧
      number? [thousands, hundreds, tens, ones] = some number := by
  obtain ⟨thousands, hundreds, tens, ones, shape⟩ :=
    List.length_eq_four.1 (length_padded (by decide) fits)
  exact ⟨thousands, hundreds, tens, ones, shape, shape ▸ number?_padded 4 number⟩

/-- One more digit is the last digit of the number behind the others. -/
theorem padded_add_one {digits : Nat} (wide : 0 < digits) (number : Nat) :
    padded (digits + 1) number = padded digits (number / 10) ++ [(number % 10).digitChar] := by
  rcases Nat.lt_or_ge number 10 with small | large
  · have none : number / 10 = 0 := Nat.div_eq_of_lt small
    have zeros : padded digits 0 = List.replicate digits '0' := by
      rw [padded, Nat.toDigits_of_lt_base (by decide)]
      obtain ⟨count, rfl⟩ : ∃ count, digits = count + 1 := ⟨digits - 1, by omega⟩
      simp [List.replicate_succ', Nat.digitChar]
    rw [none, zeros, padded, Nat.toDigits_of_lt_base small, Nat.mod_eq_of_lt small]
    simp
  · rw [padded, padded, Nat.toDigits_of_base_le (by decide) large, List.length_append,
      List.length_singleton, Nat.add_sub_add_right, List.append_assoc]

theorem digitChar_lt_digitChar {less digit : Nat} (before : less < digit) (isDigit : digit < 10) :
    less.digitChar < digit.digitChar := by
  rw [Char.lt_def, UInt32.lt_iff_toNat_lt]
  have value := Nat.toNat_digitChar_of_lt_ten isDigit
  have lessValue := Nat.toNat_digitChar_of_lt_ten (Nat.lt_trans before isDigit)
  rw [Char.toNat] at value lessValue
  omega

/-- Texts that begin with numbers of one width are in the order of the numbers, then in that of
what follows. -/
theorem padded_append_lt {digits left right : Nat} {leftRest rightRest : List Char}
    (wide : 0 < digits) (fits : right < 10 ^ digits)
    (before : left < right ∨ left = right ∧ leftRest < rightRest) :
    padded digits left ++ leftRest < padded digits right ++ rightRest := by
  -- The last digit joins what follows, so that fewer digits remain to be compared.
  induction digits, wide using Nat.le_induction generalizing left right leftRest rightRest with
  | base =>
      have shown : ∀ digit < 10, padded 1 digit = [digit.digitChar] := fun digit small => by
        rw [padded, Nat.toDigits_of_lt_base small]
        rfl
      have small : left < 10 := by omega
      rw [shown left small, shown right fits, List.singleton_append, List.singleton_append,
        List.cons_lt_cons_iff]
      exact before.imp (digitChar_lt_digitChar · fits) (And.imp_left (congrArg _))
  | succ digits wide ih =>
      have shorter : right / 10 < 10 ^ digits := by
        rw [Nat.pow_succ] at fits
        omega
      rw [padded_add_one wide, padded_add_one wide, List.append_assoc, List.append_assoc]
      refine ih shorter ?_
      rw [List.singleton_append, List.singleton_append, List.cons_lt_cons_iff]
      rcases before with less | ⟨rfl, rest⟩
      · rcases Nat.lt_or_ge (left / 10) (right / 10) with front | same
        · exact .inl front
        · exact .inr ⟨by omega, .inl (digitChar_lt_digitChar (by omega) (by omega))⟩
      · exact .inr ⟨rfl, .inr ⟨rfl, rest⟩⟩

end WordPackage.Text
