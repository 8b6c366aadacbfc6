import WordPackage.Proofs.Json.Lexeme
import WordPackage.Proofs.Json.Number

/-!
# What the readers of lexemes accept

Each reader takes a token of the grammar and nothing else: whatever it accepts begins with blanks
and a token, and what it leaves stands behind them. So what is read is what the grammar says.
-/

namespace WordPackage.Json

/-- Whether tokens lead from characters to a rest: in whatever way the rest is laid out, the
characters lay out the tokens in front of it. -/
def Lead (tokens : List Token) (chars rest : List Char) : Prop :=
  ∀ more : List Token, LaysOut more rest → LaysOut (tokens ++ more) chars

namespace Lead

variable {tokens more : List Token} {chars middle rest : List Char}

theorem refl (chars : List Char) : Lead [] chars chars := fun _ laid => laid

theorem trans (first : Lead tokens chars middle) (second : Lead more middle rest) :
    Lead (tokens ++ more) chars rest := by
  intro others laid
  rw [List.append_assoc]
  exact first _ (second _ laid)

theorem token (token : Token) (rest : List Char) : Lead [token] (token ++ rest) rest :=
  fun _ laid => .token isBlank_nil laid

theorem skipSpace (chars : List Char) : Lead [] chars (skipSpace chars) := by
  intro more laid
  have blanks : IsBlank (chars.takeWhile Char.isWhitespace) := fun _ => List.mem_takeWhile_imp
  have laid' := laid.prepend blanks
  rwa [Json.skipSpace, List.takeWhile_append_dropWhile] at laid'

theorem of_skipSpace {token : Token} (next : Json.skipSpace chars = token ++ rest) :
    Lead [token] chars rest :=
  (skipSpace chars).trans (next ▸ Lead.token token rest)

theorem mark {char : Char} (next : Json.skipSpace chars = char :: rest) :
    Lead [[char]] chars rest :=
  of_skipSpace next

theorem laysOut (lead : Lead tokens chars rest) (blank : (Json.skipSpace rest).isEmpty = true) :
    LaysOut tokens chars := by
  have last : LaysOut [] rest :=
    .blank (List.dropWhile_eq_nil_iff.1 (List.isEmpty_iff.1 blank))
  have laid := lead [] last
  rwa [List.append_nil] at laid

end Lead

/-- A mark that is read stands there. -/
theorem lead_of_readMark {mark : Char} {chars rest : List Char}
    (reads : readMark mark chars = .ok rest) : Lead [[mark]] chars rest := by
  unfold readMark at reads
  split at reads
  · cases reads
  · rename_i char tail next
    split at reads
    · rename_i same
      cases reads
      exact .mark (same ▸ next)
    · cases reads

/-- A word that is read stands there. -/
theorem eq_append_of_readWord {word chars rest : List Char}
    (reads : readWord word chars = .ok rest) : chars = word ++ rest := by
  induction word generalizing chars with
  | nil =>
      cases reads
      rfl
  | cons letter later ih =>
      cases chars with
      | nil => cases reads
      | cons char tail =>
          rw [readWord] at reads
          split at reads
          · rename_i same
            rw [same, ih reads, List.cons_append]
          · cases reads

/-- What is read as hexadecimal digits is four of them. -/
theorem eq_of_readHex {chars rest : List Char} {unit : Nat}
    (reads : readHex chars = .ok (unit, rest)) :
    ∃ a b c d, chars = a :: b :: c :: d :: rest ∧ codeUnit? a b c d = some unit := by
  unfold readHex at reads
  split at reads
  · rename_i a b c d tail
    split at reads
    · rename_i first second third fourth
      cases reads
      refine ⟨a, b, c, d, rfl, ?_⟩
      simp only [codeUnit?, first, second, third, fourth]
    · cases reads
  · cases reads

/-- The letter of a short escape is listed with its character. -/
theorem mem_shortEscapes {letter char : Char} (escape : shortEscape? letter = some char) :
    (letter, char) ∈ shortEscapes := by
  unfold shortEscape? at escape
  split_ifs at escape with itself
  · obtain rfl := Option.some.inj escape
    rcases itself with rfl | rfl | rfl <;> decide
  all_goals
    obtain rfl := Option.some.inj escape
    subst letter
    decide

/-- What is read as an escape, given from behind the backslash, spells its character. -/
def IsEscape (front : List Char) (char : Char) : Prop :=
  ∀ {body text : List Char}, Spells body text → Spells ('\\' :: (front ++ body)) (char :: text)

/-- What is read of a character by its code point is one or two code units. -/
theorem isEscape_of_readUnicode {chars rest : List Char} {char : Char}
    (reads : readUnicode chars = .ok (char, rest)) :
    ∃ front, chars = front ++ rest ∧ IsEscape ('u' :: front) char := by
  unfold readUnicode at reads
  split at reads
  · cases reads
  · rename_i unit behind first
    obtain ⟨a, b, c, d, rfl, digits⟩ := eq_of_readHex first
    split at reads
    · cases reads
    · rename_i notLow
      rw [isLowSurrogate, ← Bool.decide_and, decide_eq_true_eq] at notLow
      split at reads
      · rename_i isHigh
        rw [isHighSurrogate, ← Bool.decide_and, decide_eq_true_eq] at isHigh
        split at reads
        · cases reads
        · rename_i middle word
          obtain rfl := eq_append_of_readWord word
          split at reads
          · cases reads
          · rename_i unit' behind' second
            obtain ⟨a', b', c', d', rfl, digits'⟩ := eq_of_readHex second
            split at reads
            · rename_i isLow
              rw [isLowSurrogate, ← Bool.decide_and, decide_eq_true_eq] at isLow
              obtain ⟨rfl, rfl⟩ := Prod.mk.inj (Except.ok.inj reads)
              exact ⟨[a, b, c, d, '\\', 'u', a', b', c', d'], rfl,
                fun spells => .pair digits digits' isHigh isLow spells⟩
            · cases reads
      · rename_i notHigh
        rw [isHighSurrogate, ← Bool.decide_and, decide_eq_true_eq] at notHigh
        obtain ⟨rfl, rfl⟩ := Prod.mk.inj (Except.ok.inj reads)
        have isWhole : unit < 0xD800 ∨ 0xDFFF < unit := by omega
        exact ⟨[a, b, c, d], rfl, fun spells => .unicode digits isWhole spells⟩

/-- What is read as an escape is one. -/
theorem isEscape_of_readEscape {chars rest : List Char} {char : Char}
    (reads : readEscape chars = .ok (char, rest)) :
    ∃ front, chars = front ++ rest ∧ IsEscape front char := by
  cases chars with
  | nil => cases reads
  | cons letter tail =>
      rw [readEscape] at reads
      split at reads
      · rename_i same
        obtain ⟨front, split, escape⟩ := isEscape_of_readUnicode reads
        exact ⟨'u' :: front, by rw [split, same, List.cons_append], escape⟩
      · split at reads
        · rename_i short
          cases reads
          exact ⟨[letter], rfl, fun spells => .short (mem_shortEscapes short) spells⟩
        · cases reads

/-- What is read as the rest of a string spells the text up to a quotation mark. -/
theorem spells_of_readString {chars letters rest : List Char}
    (reads : readString chars = .ok (letters, rest)) :
    ∃ body, chars = body ++ '"' :: rest ∧ Spells body letters := by
  fun_induction readString chars generalizing letters with
  | case1 => cases reads
  | case2 =>
      cases reads
      exact ⟨[], rfl, .nil⟩
  | case3 => cases reads
  | case4 behind escaped behind' escape _ ih =>
      obtain ⟨⟨later, last⟩, read, same⟩ := eq_ok_of_map reads
      cases same
      obtain ⟨body, rfl, spells⟩ := ih read
      obtain ⟨front, rfl, isEscape⟩ := isEscape_of_readEscape escape
      exact ⟨'\\' :: (front ++ body), by simp, isEscape spells⟩
  | case5 => cases reads
  | case6 char behind noMark noEscape noControl ih =>
      obtain ⟨⟨later, last⟩, read, same⟩ := eq_ok_of_map reads
      cases same
      obtain ⟨body, rfl, spells⟩ := ih read
      exact ⟨char :: body, rfl, .plain ⟨noMark, noEscape, Nat.not_lt.1 noControl⟩ spells⟩

/-- What is skipped as an escape, given from behind the backslash, may stand in a string. -/
theorem isBody_of_skipEscape {chars rest : List Char} (skips : skipEscape chars = .ok rest) :
    ∃ front, chars = front ++ rest ∧ ∀ body, IsBody body → IsBody ('\\' :: (front ++ body)) := by
  cases chars with
  | nil => cases skips
  | cons letter tail =>
      rw [skipEscape] at skips
      split at skips
      · rename_i same
        obtain ⟨⟨unit, behind⟩, read, same'⟩ := eq_ok_of_map skips
        cases same'
        obtain ⟨a, b, c, d, rfl, digits⟩ := eq_of_readHex read
        rw [same]
        exact ⟨['u', a, b, c, d], rfl, fun _ isBody => .unicode digits isBody⟩
      · split at skips
        · rename_i isShort
          cases skips
          obtain ⟨char, short⟩ := Option.isSome_iff_exists.1 isShort
          exact ⟨[letter], rfl, fun _ isBody => .short (mem_shortEscapes short) isBody⟩
        · cases skips

/-- What is skipped as the rest of a string may stand in one up to a quotation mark. -/
theorem isBody_of_skipString {chars rest : List Char} (skips : skipString chars = .ok rest) :
    ∃ body, chars = body ++ '"' :: rest ∧ IsBody body := by
  fun_induction skipString chars with
  | case1 => cases skips
  | case2 =>
      cases skips
      exact ⟨[], rfl, .nil⟩
  | case3 => cases skips
  | case4 behind behind' escape _ ih =>
      obtain ⟨body, rfl, isBody⟩ := ih skips
      obtain ⟨front, rfl, isEscape⟩ := isBody_of_skipEscape escape
      exact ⟨'\\' :: (front ++ body), by simp, isEscape body isBody⟩
  | case5 => cases skips
  | case6 char behind noMark noEscape noControl ih =>
      obtain ⟨body, rfl, isBody⟩ := ih skips
      exact ⟨char :: body, rfl, .plain ⟨noMark, noEscape, Nat.not_lt.1 noControl⟩ isBody⟩

theorem areDigits_takeWhile {digit : Char} (isDigit : digit.isDigit = true) (chars : List Char) :
    AreDigits (digit :: chars.takeWhile Char.isDigit) where
  nonempty := List.cons_ne_nil _ _
  digits := List.forall_mem_cons.2 ⟨isDigit, fun _ => List.mem_takeWhile_imp⟩

/-- What is skipped as an exponent, given from behind its letter, is a sign that may be missing
and digits. -/
theorem eq_append_of_skipExponent {chars rest : List Char}
    (skips : skipExponent chars = .ok rest) :
    ∃ sign digits, (sign = [] ∨ sign = ['+'] ∨ sign = ['-']) ∧ AreDigits digits ∧
      chars = sign ++ (digits ++ rest) := by
  have unsigned : ∀ {digit : Char} {tail : List Char},
      (if digit.isDigit then Except.ok (tail.dropWhile Char.isDigit)
        else .error Fault.malformed) = .ok rest →
      ∃ digits, AreDigits digits ∧ digit :: tail = digits ++ rest := by
    intro digit tail skips
    split at skips
    · rename_i isDigit
      cases skips
      refine ⟨_, areDigits_takeWhile isDigit tail, ?_⟩
      rw [List.cons_append, List.takeWhile_append_dropWhile]
    · cases skips
  unfold skipExponent at skips
  dsimp only at skips
  split at skips
  · rename_i digit tail signed
    obtain ⟨digits, are, split⟩ := unsigned skips
    split at signed
    · exact ⟨['+'], digits, .inr (.inl rfl), are, by rw [signed, split]; rfl⟩
    · exact ⟨['-'], digits, .inr (.inr rfl), are, by rw [signed, split]; rfl⟩
    · exact ⟨[], digits, .inl rfl, are, by rw [signed, split]; rfl⟩
  · cases skips

/-- What is skipped behind a fraction is an exponent. -/
theorem isExponent_of_skipScale {chars rest : List Char} (skips : skipScale chars = .ok rest) :
    ∃ exponent, IsExponent exponent ∧ chars = exponent ++ rest := by
  unfold skipScale at skips
  split at skips
  · obtain ⟨sign, digits, isSign, are, rfl⟩ := eq_append_of_skipExponent skips
    exact ⟨_, .inr ⟨'e', sign, digits, .inl rfl, isSign, are, rfl⟩, by simp⟩
  · obtain ⟨sign, digits, isSign, are, rfl⟩ := eq_append_of_skipExponent skips
    exact ⟨_, .inr ⟨'E', sign, digits, .inr rfl, isSign, are, rfl⟩, by simp⟩
  · cases skips
    exact ⟨[], .inl rfl, rfl⟩

/-- What is skipped behind an integer is a fraction and an exponent. -/
theorem isFraction_of_skipFraction {chars rest : List Char}
    (skips : skipFraction chars = .ok rest) :
    ∃ fraction exponent, IsFraction fraction ∧ IsExponent exponent ∧
      chars = fraction ++ (exponent ++ rest) := by
  unfold skipFraction at skips
  split at skips
  · rename_i digit tail
    split at skips
    · rename_i isDigit
      obtain ⟨exponent, isExponent, split⟩ := isExponent_of_skipScale skips
      refine ⟨_, exponent, .inr ⟨_, areDigits_takeWhile isDigit tail, rfl⟩, isExponent, ?_⟩
      rw [← split, List.cons_append, List.cons_append, List.takeWhile_append_dropWhile]
    · cases skips
  · cases skips
  · obtain ⟨exponent, isExponent, split⟩ := isExponent_of_skipScale skips
    exact ⟨[], exponent, .inl rfl, isExponent, split⟩

/-- What is skipped as a number, given from behind its sign, is one. -/
theorem isNumber_of_skipNumber {sign chars rest : List Char} (isSign : sign = [] ∨ sign = ['-'])
    (skips : skipNumber chars = .ok rest) :
    ∃ token, IsNumber token ∧ sign ++ chars = token ++ rest := by
  unfold skipNumber at skips
  split at skips
  · rename_i tail
    split at skips
    · cases skips
    · obtain ⟨fraction, exponent, isFraction, isExponent, rfl⟩ := isFraction_of_skipFraction skips
      exact ⟨_, .intro isSign (.inl rfl) isFraction isExponent, by simp⟩
  · rename_i digit tail noZero
    split at skips
    · rename_i isDigit
      obtain ⟨fraction, exponent, isFraction, isExponent, split⟩ :=
        isFraction_of_skipFraction skips
      have noZero' : (digit :: tail.takeWhile Char.isDigit).head? ≠ some '0' := by
        rintro ⟨⟩
        exact noZero rfl
      refine ⟨_, .intro isSign (.inr ⟨areDigits_takeWhile isDigit tail, noZero'⟩) isFraction
        isExponent, ?_⟩
      rw [List.append_assoc, List.append_assoc, List.append_assoc, ← split, List.cons_append,
        List.takeWhile_append_dropWhile]
    · cases skips
  · cases skips

end WordPackage.Json
