import WordPackage.Text.Width

/-!
# Lexemes of JSON

The parts of a JSON text below its values: blanks, words, strings and numbers.
Every reader takes the characters that are left and gives the characters after
what it read. The lemmas say that each takes at least one character, which is
what the readers of values rest their termination on.
-/

namespace WordPackage.Json

/-- Why a JSON text is refused. -/
inductive Fault where
  | malformed
  | mismatched
  | truncated
  deriving DecidableEq, Repr

theorem eq_ok_of_map {α β : Type} {convert : α → β} {result : Except Fault α} {value : β}
    (maps : result.map convert = .ok value) :
    ∃ inner, result = .ok inner ∧ convert inner = value := by
  cases result with
  | error fault => simp [Except.map] at maps
  | ok inner => exact ⟨inner, rfl, by simpa [Except.map] using maps⟩

/-- The characters after the blanks. -/
def skipSpace (chars : List Char) : List Char :=
  chars.dropWhile Char.isWhitespace

theorem length_skipSpace_le (chars : List Char) : (skipSpace chars).length ≤ chars.length :=
  (List.dropWhile_sublist Char.isWhitespace).length_le

/-- Read the given characters. -/
def readWord : List Char → List Char → Except Fault (List Char)
  | [], chars => .ok chars
  | _ :: _, [] => .error .truncated
  | expected :: word, char :: rest =>
      if char = expected then readWord word rest else .error .malformed

theorem length_readWord_le {word chars rest : List Char}
    (reads : readWord word chars = .ok rest) : rest.length ≤ chars.length := by
  induction word generalizing chars with
  | nil =>
      unfold readWord at reads
      cases reads
      exact Nat.le_refl _
  | cons expected word ih =>
      cases chars with
      | nil => simp [readWord] at reads
      | cons char tail =>
          unfold readWord at reads
          split at reads
          · have := ih reads
            simp only [List.length_cons]
            omega
          · simp at reads

/-- The value of a hexadecimal digit. -/
def hexDigit? (char : Char) : Option Nat :=
  if '0' ≤ char ∧ char ≤ '9' then some (char.toNat - '0'.toNat)
  else if 'a' ≤ char ∧ char ≤ 'f' then some (char.toNat - 'a'.toNat + 10)
  else if 'A' ≤ char ∧ char ≤ 'F' then some (char.toNat - 'A'.toNat + 10)
  else none

/-- The fault of an escape whose four hexadecimal digits are not there: the text
ends too early if fewer than four bytes are left. -/
def hexFault (chars : List Char) : Fault :=
  if Text.width (chars.take 4) < 4 then .truncated else .malformed

/-- Read four hexadecimal digits. -/
def readHex (chars : List Char) : Except Fault (Nat × List Char) :=
  match chars with
  | a :: b :: c :: d :: rest =>
      match hexDigit? a, hexDigit? b, hexDigit? c, hexDigit? d with
      | some a, some b, some c, some d => .ok (((a * 16 + b) * 16 + c) * 16 + d, rest)
      | _, _, _, _ => .error (hexFault chars)
  | _ => .error (hexFault chars)

theorem length_readHex_lt {chars rest : List Char} {unit : Nat}
    (reads : readHex chars = .ok (unit, rest)) : rest.length < chars.length := by
  unfold readHex at reads
  repeat' split at reads
  all_goals first
    | (cases reads; simp only [List.length_cons]; omega)
    | simp at reads

/-- Whether a code unit is the first half of a surrogate pair. -/
def isHighSurrogate (unit : Nat) : Bool :=
  0xD800 ≤ unit && unit ≤ 0xDBFF

/-- Whether a code unit is the second half of a surrogate pair. -/
def isLowSurrogate (unit : Nat) : Bool :=
  0xDC00 ≤ unit && unit ≤ 0xDFFF

/-- Read the rest of a character whose escape starts with `\u`. -/
def readUnicode (chars : List Char) : Except Fault (Char × List Char) :=
  match readHex chars with
  | .error fault => .error fault
  | .ok (unit, rest) =>
      if isLowSurrogate unit then .error .malformed
      else if isHighSurrogate unit then
        match readWord ['\\', 'u'] rest with
        | .error fault => .error fault
        | .ok rest =>
            match readHex rest with
            | .error fault => .error fault
            | .ok (unit', rest) =>
                if isLowSurrogate unit' then
                  .ok (.ofNat ((unit - 0xD800) * 0x400 + (unit' - 0xDC00) + 0x10000), rest)
                else .error .malformed
      else .ok (.ofNat unit, rest)

theorem length_readUnicode_lt {chars rest : List Char} {char : Char}
    (reads : readUnicode chars = .ok (char, rest)) : rest.length < chars.length := by
  unfold readUnicode at reads
  split at reads
  · simp at reads
  · rename_i unit rest₁ first
    have firstShorter := length_readHex_lt first
    split at reads
    · simp at reads
    · split at reads
      · split at reads
        · simp at reads
        · rename_i rest₂ word
          have wordShorter := length_readWord_le word
          split at reads
          · simp at reads
          · rename_i unit' rest₃ second
            have secondShorter := length_readHex_lt second
            split at reads
            · simp only [Except.ok.injEq, Prod.mk.injEq] at reads
              rw [← reads.2]
              omega
            · simp at reads
      · simp only [Except.ok.injEq, Prod.mk.injEq] at reads
        rw [← reads.2]
        exact firstShorter

/-- The character of an escape of two characters, given by its second. -/
def shortEscape? (char : Char) : Option Char :=
  if char = '"' ∨ char = '\\' ∨ char = '/' then some char
  else if char = 'b' then some '\x08'
  else if char = 'f' then some '\x0c'
  else if char = 'n' then some '\n'
  else if char = 'r' then some '\r'
  else if char = 't' then some '\t'
  else none

/-- Read the rest of an escape from behind its backslash. -/
def readEscape : List Char → Except Fault (Char × List Char)
  | [] => .error .truncated
  | letter :: rest =>
      if letter = 'u' then readUnicode rest
      else
        match shortEscape? letter with
        | some char => .ok (char, rest)
        | none => .error .malformed

theorem length_readEscape_lt {chars rest : List Char} {char : Char}
    (reads : readEscape chars = .ok (char, rest)) : rest.length < chars.length := by
  cases chars with
  | nil => simp [readEscape] at reads
  | cons letter tail =>
      simp only [readEscape] at reads
      split at reads
      · have := length_readUnicode_lt reads
        simp only [List.length_cons]
        omega
      · split at reads
        · cases reads
          simp
        · simp at reads

/-- Skip the rest of an escape. Surrogates need not be paired. -/
def skipEscape : List Char → Except Fault (List Char)
  | [] => .error .truncated
  | letter :: rest =>
      if letter = 'u' then (readHex rest).map Prod.snd
      else if (shortEscape? letter).isSome then .ok rest
      else .error .malformed

theorem length_skipEscape_lt {chars rest : List Char}
    (skips : skipEscape chars = .ok rest) : rest.length < chars.length := by
  cases chars with
  | nil => simp [skipEscape] at skips
  | cons letter tail =>
      simp only [skipEscape] at skips
      split at skips
      · cases reads : readHex tail with
        | error fault => simp [reads, Except.map] at skips
        | ok pair =>
            rw [reads] at skips
            cases skips
            have := length_readHex_lt reads
            simp only [List.length_cons]
            omega
      · split at skips
        · cases skips
          simp
        · simp at skips

/-- Read the rest of a string from behind its opening quotation mark. -/
def readString (chars : List Char) : Except Fault (List Char × List Char) :=
  match chars with
  | [] => .error .truncated
  | char :: rest =>
      if char = '"' then .ok ([], rest)
      else if char = '\\' then
        match _escape : readEscape rest with
        | .error fault => .error fault
        | .ok (escaped, rest') =>
            (readString rest').map fun parts => (escaped :: parts.1, parts.2)
      else if char.toNat < 0x20 then .error .malformed
      else (readString rest).map fun parts => (char :: parts.1, parts.2)
termination_by chars.length
decreasing_by
  · have := length_readEscape_lt _escape
    simp only [List.length_cons]
    omega
  · simp

theorem length_readString_lt {chars text rest : List Char}
    (reads : readString chars = .ok (text, rest)) : rest.length < chars.length := by
  fun_induction readString chars generalizing text with
  | case1 => simp at reads
  | case2 => cases reads; simp
  | case3 => simp at reads
  | case4 rest escaped rest' escape _ ih =>
      cases inner : readString rest' with
      | error fault => simp [inner, Except.map] at reads
      | ok parts =>
          rw [inner] at reads
          cases reads
          have := ih inner
          have := length_readEscape_lt escape
          simp only [List.length_cons]
          omega
  | case5 => simp at reads
  | case6 char rest _ _ _ ih =>
      cases inner : readString rest with
      | error fault => simp [inner, Except.map] at reads
      | ok parts =>
          rw [inner] at reads
          cases reads
          have := ih inner
          simp only [List.length_cons]
          omega

/-- Skip the rest of a string from behind its opening quotation mark. -/
def skipString (chars : List Char) : Except Fault (List Char) :=
  match chars with
  | [] => .error .truncated
  | char :: rest =>
      if char = '"' then .ok rest
      else if char = '\\' then
        match _escape : skipEscape rest with
        | .error fault => .error fault
        | .ok rest' => skipString rest'
      else if char.toNat < 0x20 then .error .malformed
      else skipString rest
termination_by chars.length
decreasing_by
  · have := length_skipEscape_lt _escape
    simp only [List.length_cons]
    omega
  · simp

theorem length_skipString_lt {chars rest : List Char}
    (skips : skipString chars = .ok rest) : rest.length < chars.length := by
  fun_induction skipString chars with
  | case1 => simp at skips
  | case2 => cases skips; simp
  | case3 => simp at skips
  | case4 rest rest' escape _ ih =>
      have := ih skips
      have := length_skipEscape_lt escape
      simp only [List.length_cons]
      omega
  | case5 => simp at skips
  | case6 char rest _ _ _ ih =>
      have := ih skips
      simp only [List.length_cons]
      omega

/-- The characters after an exponent, given from behind its letter. -/
def skipExponent (chars : List Char) : Except Fault (List Char) :=
  let digits := match chars with
    | '+' :: rest => rest
    | '-' :: rest => rest
    | rest => rest
  match digits with
  | digit :: rest =>
      if digit.isDigit then .ok (rest.dropWhile Char.isDigit) else .error .malformed
  | [] => .error .malformed

/-- The characters after the exponent that may follow a number. -/
def skipScale (chars : List Char) : Except Fault (List Char) :=
  match chars with
  | 'e' :: rest => skipExponent rest
  | 'E' :: rest => skipExponent rest
  | rest => .ok rest

/-- The characters after the fraction and the exponent that may follow an integer. -/
def skipFraction (chars : List Char) : Except Fault (List Char) :=
  match chars with
  | '.' :: digit :: rest =>
      if digit.isDigit then skipScale (rest.dropWhile Char.isDigit) else .error .malformed
  | '.' :: [] => .error .malformed
  | rest => skipScale rest

/-- The characters after a number, given from behind its sign. A number has no
leading zeros. -/
def skipNumber (chars : List Char) : Except Fault (List Char) :=
  match chars with
  | '0' :: rest => if rest.head?.any Char.isDigit then .error .malformed else skipFraction rest
  | digit :: rest =>
      if digit.isDigit then skipFraction (rest.dropWhile Char.isDigit) else .error .malformed
  | [] => .error .malformed

theorem length_skipExponent_le {chars rest : List Char}
    (skips : skipExponent chars = .ok rest) : rest.length ≤ chars.length := by
  unfold skipExponent at skips
  simp only at skips
  split at skips
  · rename_i digit tail signed
    split at skips
    · cases skips
      have dropped := (List.dropWhile_sublist Char.isDigit (l := tail)).length_le
      split at signed <;> simp_all <;> omega
    · simp at skips
  · simp at skips

theorem length_skipScale_le {chars rest : List Char}
    (skips : skipScale chars = .ok rest) : rest.length ≤ chars.length := by
  unfold skipScale at skips
  split at skips
  · have := length_skipExponent_le skips
    simp only [List.length_cons]
    omega
  · have := length_skipExponent_le skips
    simp only [List.length_cons]
    omega
  · cases skips
    exact Nat.le_refl _

theorem length_skipFraction_le {chars rest : List Char}
    (skips : skipFraction chars = .ok rest) : rest.length ≤ chars.length := by
  unfold skipFraction at skips
  split at skips
  · rename_i digit tail
    split at skips
    · have := length_skipScale_le skips
      have dropped := (List.dropWhile_sublist Char.isDigit (l := tail)).length_le
      simp only [List.length_cons]
      omega
    · simp at skips
  · simp at skips
  · exact length_skipScale_le skips

theorem length_skipNumber_lt {chars rest : List Char}
    (skips : skipNumber chars = .ok rest) : rest.length < chars.length := by
  unfold skipNumber at skips
  split at skips
  · split at skips
    · simp at skips
    · have := length_skipFraction_le skips
      simp only [List.length_cons]
      omega
  · rename_i digit tail _
    split at skips
    · have := length_skipFraction_le skips
      have dropped := (List.dropWhile_sublist Char.isDigit (l := tail)).length_le
      simp only [List.length_cons]
      omega
    · simp at skips
  · simp at skips

/-- Read a given separator. -/
def readMark (mark : Char) (chars : List Char) : Except Fault (List Char) :=
  match skipSpace chars with
  | [] => .error .truncated
  | char :: rest => if char = mark then .ok rest else .error .malformed

theorem length_readMark_lt {mark : Char} {chars rest : List Char}
    (reads : readMark mark chars = .ok rest) : rest.length < chars.length := by
  unfold readMark at reads
  have blanks := length_skipSpace_le chars
  split at reads
  · simp at reads
  · rename_i char tail behind
    rw [behind, List.length_cons] at blanks
    split at reads
    · cases reads
      omega
    · simp at reads

end WordPackage.Json
