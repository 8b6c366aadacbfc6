import Mathlib.Tactic.SplitIfs
import WordPackage.Proofs.Json.Layout

/-!
# Words and strings of JSON

The grammar of strings, and that the readers take exactly a token and leave what follows it. A
string is read where it spells a text, with surrogates in pairs; where a string is skipped any four
hexadecimal digits may stand in an escape. A written string spells its text.
-/

namespace WordPackage.Json

theorem LaysOut.readMark_eq {mark : Char} {more : List Token} {chars : List Char}
    (laid : LaysOut ([mark] :: more) chars) (isSolid : mark.isWhitespace = false) :
    ∃ rest, readMark mark chars = .ok rest ∧ LaysOut more rest := by
  obtain ⟨rest, next, later⟩ := laid.skipSpace_eq isSolid
  refine ⟨rest, ?_, later⟩
  rw [readMark, next]
  exact if_pos rfl

theorem readWord_append (word rest : List Char) : readWord word (word ++ rest) = .ok rest := by
  induction word with
  | nil => rfl
  | cons letter later ih => rw [List.cons_append, readWord, if_pos rfl, ih]

/-- Whether a character stands for itself in a string. -/
structure IsPlain (char : Char) : Prop where
  noMark : char ≠ '"'
  noEscape : char ≠ '\\'
  noControl : 0x20 ≤ char.toNat

instance (char : Char) : Decidable (IsPlain char) :=
  decidable_of_iff (char ≠ '"' ∧ char ≠ '\\' ∧ 0x20 ≤ char.toNat)
    ⟨fun ⟨noMark, noEscape, noControl⟩ => ⟨noMark, noEscape, noControl⟩,
      fun ⟨noMark, noEscape, noControl⟩ => ⟨noMark, noEscape, noControl⟩⟩

/-- The escapes of two characters by their second, with what they stand for. -/
def shortEscapes : List (Char × Char) :=
  [('"', '"'), ('\\', '\\'), ('/', '/'), ('b', '\x08'), ('f', '\x0c'), ('n', '\n'), ('r', '\r'),
    ('t', '\t')]

/-- The number that four hexadecimal digits stand for. -/
def codeUnit? (a b c d : Char) : Option Nat :=
  match hexDigit? a, hexDigit? b, hexDigit? c, hexDigit? d with
  | some a, some b, some c, some d => some (((a * 16 + b) * 16 + c) * 16 + d)
  | _, _, _, _ => none

/-- What stands between the quotation marks of a string, and the text that it spells. -/
inductive Spells : List Char → List Char → Prop where
  | nil : Spells [] []
  | plain {char : Char} {body text : List Char} (isPlain : IsPlain char)
      (later : Spells body text) : Spells (char :: body) (char :: text)
  | short {letter char : Char} {body text : List Char} (listed : (letter, char) ∈ shortEscapes)
      (later : Spells body text) : Spells ('\\' :: letter :: body) (char :: text)
  | unicode {a b c d : Char} {unit : Nat} {body text : List Char}
      (digits : codeUnit? a b c d = some unit) (isWhole : unit < 0xD800 ∨ 0xDFFF < unit)
      (later : Spells body text) :
      Spells ('\\' :: 'u' :: a :: b :: c :: d :: body) (.ofNat unit :: text)
  | pair {a b c d a' b' c' d' : Char} {high low : Nat} {body text : List Char}
      (digits : codeUnit? a b c d = some high) (digits' : codeUnit? a' b' c' d' = some low)
      (isHigh : 0xD800 ≤ high ∧ high ≤ 0xDBFF) (isLow : 0xDC00 ≤ low ∧ low ≤ 0xDFFF)
      (later : Spells body text) :
      Spells ('\\' :: 'u' :: a :: b :: c :: d :: '\\' :: 'u' :: a' :: b' :: c' :: d' :: body)
        (.ofNat ((high - 0xD800) * 0x400 + (low - 0xDC00) + 0x10000) :: text)

/-- What may stand between the quotation marks of a string, whether or not it spells a text. -/
inductive IsBody : List Char → Prop where
  | nil : IsBody []
  | plain {char : Char} {body : List Char} (isPlain : IsPlain char) (later : IsBody body) :
      IsBody (char :: body)
  | short {letter char : Char} {body : List Char} (listed : (letter, char) ∈ shortEscapes)
      (later : IsBody body) : IsBody ('\\' :: letter :: body)
  | unicode {a b c d : Char} {unit : Nat} {body : List Char}
      (digits : codeUnit? a b c d = some unit) (later : IsBody body) :
      IsBody ('\\' :: 'u' :: a :: b :: c :: d :: body)

/-- The token of a string. -/
def stringToken (body : List Char) : Token :=
  '"' :: (body ++ ['"'])

theorem LaysOut.skipSpace_string {body : List Char} {more : List Token} {chars : List Char}
    (laid : LaysOut (stringToken body :: more) chars) :
    ∃ rest, skipSpace chars = '"' :: (body ++ '"' :: rest) ∧ LaysOut more rest := by
  obtain ⟨rest, next, later⟩ := laid.skipSpace_eq rfl
  rw [List.append_assoc, List.singleton_append] at next
  exact ⟨rest, next, later⟩

theorem readHex_eq {a b c d : Char} {unit : Nat} (digits : codeUnit? a b c d = some unit)
    (rest : List Char) : readHex (a :: b :: c :: d :: rest) = .ok (unit, rest) := by
  unfold codeUnit? at digits
  split at digits
  · rename_i first second third fourth
    obtain rfl := Option.some.inj digits
    simp only [readHex, first, second, third, fourth]
  · cases digits

theorem shortEscape?_eq {letter char : Char} (listed : (letter, char) ∈ shortEscapes) :
    letter ≠ 'u' ∧ shortEscape? letter = some char := by
  have all : ∀ escape ∈ shortEscapes,
      escape.1 ≠ 'u' ∧ shortEscape? escape.1 = some escape.2 := by decide
  exact all _ listed

theorem readString_plain {char : Char} (isPlain : IsPlain char) (rest : List Char) :
    readString (char :: rest)
      = (readString rest).map fun parts => (char :: parts.1, parts.2) := by
  rw [readString, if_neg isPlain.noMark, if_neg isPlain.noEscape,
    if_neg (Nat.not_lt.2 isPlain.noControl)]

theorem readString_escape {chars rest : List Char} {char : Char}
    (escape : readEscape chars = .ok (char, rest)) :
    readString ('\\' :: chars)
      = (readString rest).map fun parts => (char :: parts.1, parts.2) := by
  rw [readString, if_neg (by decide), if_pos rfl, escape]

/-- A code unit that is no surrogate is read as its character. -/
theorem readUnicode_single {a b c d : Char} {unit : Nat} (digits : codeUnit? a b c d = some unit)
    (isWhole : unit < 0xD800 ∨ 0xDFFF < unit) (rest : List Char) :
    readUnicode (a :: b :: c :: d :: rest) = .ok (.ofNat unit, rest) := by
  have notLow : isLowSurrogate unit = false := by
    rw [isLowSurrogate, ← Bool.decide_and, decide_eq_false_iff_not]
    omega
  have notHigh : isHighSurrogate unit = false := by
    rw [isHighSurrogate, ← Bool.decide_and, decide_eq_false_iff_not]
    omega
  rw [readUnicode, readHex_eq digits]
  simp only [notLow, notHigh, Bool.false_eq_true, if_false]

/-- Two surrogates are read as the character that they stand for together. -/
theorem readUnicode_pair {a b c d a' b' c' d' : Char} {high low : Nat}
    (digits : codeUnit? a b c d = some high) (digits' : codeUnit? a' b' c' d' = some low)
    (isHigh : 0xD800 ≤ high ∧ high ≤ 0xDBFF) (isLow : 0xDC00 ≤ low ∧ low ≤ 0xDFFF)
    (rest : List Char) :
    readUnicode (a :: b :: c :: d :: '\\' :: 'u' :: a' :: b' :: c' :: d' :: rest)
      = .ok (.ofNat ((high - 0xD800) * 0x400 + (low - 0xDC00) + 0x10000), rest) := by
  have notLow : isLowSurrogate high = false := by
    rw [isLowSurrogate, ← Bool.decide_and, decide_eq_false_iff_not]
    omega
  have first : isHighSurrogate high = true := by
    rw [isHighSurrogate, ← Bool.decide_and, decide_eq_true_eq]
    exact isHigh
  have second : isLowSurrogate low = true := by
    rw [isLowSurrogate, ← Bool.decide_and, decide_eq_true_eq]
    exact isLow
  have word := readWord_append ['\\', 'u'] (a' :: b' :: c' :: d' :: rest)
  rw [List.cons_append, List.singleton_append] at word
  rw [readUnicode, readHex_eq digits]
  simp only [notLow, first, Bool.false_eq_true, if_false, if_true, word, readHex_eq digits', second]

/-- A string is read as the text that it spells, up to its end. -/
theorem readString_eq {body text : List Char} (spells : Spells body text) (rest : List Char) :
    readString (body ++ '"' :: rest) = .ok (text, rest) := by
  have unicode : ∀ chars, readEscape ('u' :: chars) = readUnicode chars := by
    intro chars
    rw [readEscape, if_pos rfl]
  induction spells with
  | nil => rw [List.nil_append, readString, if_pos rfl]
  | plain isPlain _ ih =>
      rw [List.cons_append, readString_plain isPlain, ih]
      rfl
  | @short letter char body text listed _ ih =>
      obtain ⟨apart, meaning⟩ := shortEscape?_eq listed
      have escape : readEscape (letter :: (body ++ '"' :: rest))
          = .ok (char, body ++ '"' :: rest) := by
        rw [readEscape, if_neg apart, meaning]
      rw [List.cons_append, List.cons_append, readString_escape escape, ih]
      rfl
  | unicode digits isWhole _ ih =>
      simp only [List.cons_append]
      rw [readString_escape ((unicode _).trans (readUnicode_single digits isWhole _)), ih]
      rfl
  | pair digits digits' isHigh isLow _ ih =>
      simp only [List.cons_append]
      have whole := readUnicode_pair digits digits' isHigh isLow
      rw [readString_escape ((unicode _).trans (whole _)), ih]
      rfl

theorem skipString_escape {chars rest : List Char} (escape : skipEscape chars = .ok rest) :
    skipString ('\\' :: chars) = skipString rest := by
  rw [skipString, if_neg (by decide), if_pos rfl, escape]

/-- A string is skipped up to its end. -/
theorem skipString_eq {body : List Char} (isBody : IsBody body) (rest : List Char) :
    skipString (body ++ '"' :: rest) = .ok rest := by
  induction isBody with
  | nil => rw [List.nil_append, skipString, if_pos rfl]
  | plain isPlain _ ih =>
      rw [List.cons_append, skipString, if_neg isPlain.noMark, if_neg isPlain.noEscape,
        if_neg (Nat.not_lt.2 isPlain.noControl), ih]
  | @short letter char body listed _ ih =>
      obtain ⟨apart, meaning⟩ := shortEscape?_eq listed
      have escape : skipEscape (letter :: (body ++ '"' :: rest)) = .ok (body ++ '"' :: rest) := by
        rw [skipEscape, if_neg apart, meaning]
        exact if_pos rfl
      rw [List.cons_append, List.cons_append, skipString_escape escape, ih]
  | @unicode a b c d unit body digits _ ih =>
      have escape : skipEscape ('u' :: a :: b :: c :: d :: (body ++ '"' :: rest))
          = .ok (body ++ '"' :: rest) := by
        rw [skipEscape, if_pos rfl, readHex_eq digits]
        rfl
      simp only [List.cons_append]
      rw [skipString_escape escape, ih]

/-- A written character spells itself. -/
theorem Spells.escapeChar_append (char : Char) {body text : List Char}
    (later : Spells body text) : Spells (escapeChar char ++ body) (char :: text) := by
  have digits : ∀ digit < 16, hexDigit? (Nat.digitChar digit) = some digit := by decide
  unfold escapeChar
  split_ifs with mark backslash backspace tab lineFeed formFeed carriageReturn control
  · exact .short (by rw [mark]; decide) later
  · exact .short (by rw [backslash]; decide) later
  · exact .short (by rw [backspace]; decide) later
  · exact .short (by rw [tab]; decide) later
  · exact .short (by rw [lineFeed]; decide) later
  · exact .short (by rw [formFeed]; decide) later
  · exact .short (by rw [carriageReturn]; decide) later
  · -- A control without a letter of its own is written by its code point, below 0x20.
    have zero : hexDigit? '0' = some 0 := by decide
    have unit : codeUnit? '0' '0' (Nat.digitChar (char.toNat / 16))
        (Nat.digitChar (char.toNat % 16)) = some char.toNat := by
      have high : char.toNat / 16 < 16 := by omega
      have low : char.toNat % 16 < 16 := by omega
      simp only [codeUnit?, zero, digits _ high, digits _ low]
      congr 1
      omega
    have spells := Spells.unicode unit (.inl (by omega)) later
    rwa [Char.ofNat_toNat] at spells
  · exact .plain ⟨mark, backslash, Nat.not_lt.1 control⟩ later

theorem spells_escaped (text : List Char) : Spells (text.flatMap escapeChar) text := by
  induction text with
  | nil => exact .nil
  | cons char rest ih => exact .escapeChar_append char ih

end WordPackage.Json
