import WordPackage.Json.Magnitude

/-!
# Reading JSON of a known shape

A decoder reads one value of a known shape. A value of another shape is read far
enough to tell whether it is JSON at all: the first fault decides, reading from
left to right.
-/

namespace WordPackage.Json

/-- A reader of values of a known shape that takes at least one character. -/
structure Decoder (α : Type) where
  run : List Char → Except Fault (α × List Char)
  shortens : ∀ {chars : List Char} {value : α} {rest : List Char},
    run chars = .ok (value, rest) → rest.length < chars.length

namespace Decoder

/-- Apply a function to the value read. -/
def map {α β : Type} (convert : α → β) (decoder : Decoder α) : Decoder β where
  run chars :=
    match decoder.run chars with
    | .error fault => .error fault
    | .ok (value, rest) => .ok (convert value, rest)
  shortens := by
    intro chars value rest reads
    split at reads
    · simp at reads
    · rename_i found rest' inner
      cases reads
      exact decoder.shortens inner

end Decoder

/-- Why a value of another shape than the expected one is refused. It is given
from its first character on, which is no blank. -/
def mismatch (chars : List Char) : Fault :=
  let after (word rest : List Char) : Fault :=
    match readWord word rest with
    | .error fault => fault
    | .ok _ => .mismatched
  match chars with
  | [] => .truncated
  | char :: rest =>
      if char = 'n' then after "ull".toList rest
      else if char = 't' then after "rue".toList rest
      else if char = 'f' then after "alse".toList rest
      else if char = '-' then numberFault rest
      else if char.isDigit then numberFault chars
      else if char = '"' then
        match readString rest with
        | .error fault => fault
        | .ok _ => .mismatched
      else if char = '[' ∨ char = '\x7b' then .mismatched
      else .malformed

/-- Read a string with its quotation marks. -/
def readText (chars : List Char) : Except Fault (String × List Char) :=
  match skipSpace chars with
  | '"' :: rest => (readString rest).map fun parts => (.ofList parts.1, parts.2)
  | other => .error (mismatch other)

theorem length_readText_lt {chars rest : List Char} {text : String}
    (reads : readText chars = .ok (text, rest)) : rest.length < chars.length := by
  unfold readText at reads
  have blanks := length_skipSpace_le chars
  split at reads
  · rename_i tail behind
    rw [behind, List.length_cons] at blanks
    cases inner : readString tail with
    | error fault => simp [inner, Except.map] at reads
    | ok parts =>
        rw [inner] at reads
        cases reads
        have := length_readString_lt inner
        omega
  · simp at reads

/-- Read null. -/
def readNull (chars : List Char) : Except Fault (List Char) :=
  match skipSpace chars with
  | 'n' :: rest => readWord "ull".toList rest
  | other => .error (mismatch other)

/-- Read a string or null. -/
def readOptionalText (chars : List Char) : Except Fault (Option String × List Char) :=
  match skipSpace chars with
  | 'n' :: rest => (readWord "ull".toList rest).map fun rest => (none, rest)
  | _ => (readText chars).map fun parts => (some parts.1, parts.2)

/-- Read a truth value. -/
def readFlag (chars : List Char) : Except Fault (Bool × List Char) :=
  match skipSpace chars with
  | 't' :: rest => (readWord "rue".toList rest).map fun rest => (true, rest)
  | 'f' :: rest => (readWord "alse".toList rest).map fun rest => (false, rest)
  | other => .error (mismatch other)

/-- What comes next in an array: its end, or an item that starts at the given
characters. `isFirst` says that no item was read yet. -/
def nextItem (isFirst : Bool) (chars : List Char) :
    Except Fault (Option (List Char) × List Char) :=
  match skipSpace chars with
  | [] => .error .truncated
  | char :: rest =>
      if char = ']' then .ok (none, rest)
      else if isFirst then .ok (some (char :: rest), [])
      else if char = ',' then
        match skipSpace rest with
        | [] => .error .truncated
        | next :: rest' =>
            if next = ']' then .error .malformed else .ok (some (next :: rest'), [])
      else .error .malformed

theorem length_nextItem_end {isFirst : Bool} {chars rest : List Char}
    (reads : nextItem isFirst chars = .ok (none, rest)) : rest.length < chars.length := by
  unfold nextItem at reads
  have blanks := length_skipSpace_le chars
  repeat' split at reads
  all_goals first
    | (simp at reads; done)
    | skip
  all_goals
    rename_i behind _
    cases reads
    rw [behind, List.length_cons] at blanks
    omega

theorem length_nextItem_le {isFirst : Bool} {chars item rest : List Char}
    (reads : nextItem isFirst chars = .ok (some item, rest)) : item.length ≤ chars.length := by
  unfold nextItem at reads
  have blanks := length_skipSpace_le chars
  split at reads
  · simp at reads
  · rename_i char tail behind
    rw [behind, List.length_cons] at blanks
    split at reads
    · simp at reads
    · split at reads
      · cases reads
        simpa using blanks
      · split at reads
        · split at reads
          · simp at reads
          · rename_i next tail' behind'
            have blanks' := length_skipSpace_le tail
            rw [behind', List.length_cons] at blanks'
            split at reads
            · simp at reads
            · cases reads
              simp only [List.length_cons]
              omega
        · simp at reads

/-- Read the strings of an array from behind its bracket. -/
def readItems (isFirst : Bool) (chars : List Char) : Except Fault (List String × List Char) :=
  match _next : nextItem isFirst chars with
  | .error fault => .error fault
  | .ok (none, rest) => .ok ([], rest)
  | .ok (some item, _) =>
      match _text : readText item with
      | .error fault => .error fault
      | .ok (text, rest) =>
          (readItems false rest).map fun parts => (text :: parts.1, parts.2)
termination_by chars.length
decreasing_by
  have := length_nextItem_le _next
  have := length_readText_lt _text
  omega

theorem length_readItems_lt {isFirst : Bool} {chars rest : List Char} {texts : List String}
    (reads : readItems isFirst chars = .ok (texts, rest)) : rest.length < chars.length := by
  fun_induction readItems isFirst chars generalizing texts with
  | case1 => simp at reads
  | case2 isFirst chars rest' next =>
      cases reads
      exact length_nextItem_end next
  | case3 => simp at reads
  | case4 isFirst chars item other next text rest' item_text ih =>
      cases inner : readItems false rest' with
      | error fault => simp [inner, Except.map] at reads
      | ok parts =>
          rw [inner] at reads
          cases reads
          have := ih inner
          have := length_nextItem_le next
          have := length_readText_lt item_text
          omega

/-- Read an array of strings. -/
def readTexts (chars : List Char) : Except Fault (List String × List Char) :=
  match skipSpace chars with
  | '[' :: rest => readItems true rest
  | other => .error (mismatch other)

/-- Read one of several words: as a string, or as an object whose only field has
the word as its name and null as its value. -/
def readChoice {α : Type} (options : List (String × α)) (chars : List Char) :
    Except Fault (α × List Char) :=
  match skipSpace chars with
  | [] => .error .truncated
  | char :: rest =>
      if char = '"' then
        match readText (char :: rest) with
        | .error fault => .error fault
        | .ok (word, rest) =>
            match options.lookup word with
            | none => .error .mismatched
            | some option => .ok (option, rest)
      else if char = '\x7b' then
        match readText rest with
        | .error fault => .error fault
        | .ok (word, rest) =>
            match options.lookup word with
            | none => .error .mismatched
            | some option =>
                match readMark ':' rest with
                | .error fault => .error fault
                | .ok rest =>
                    match readNull rest with
                    | .error fault => .error fault
                    | .ok rest => (readMark '\x7d' rest).map fun rest => (option, rest)
      else .error .malformed

namespace Decoder

/-- Strings. -/
def text : Decoder String where
  run := readText
  shortens := length_readText_lt

/-- Strings or null. -/
def optionalText : Decoder (Option String) where
  run := readOptionalText
  shortens := by
    intro chars value rest reads
    unfold readOptionalText at reads
    have blanks := length_skipSpace_le chars
    split at reads
    · rename_i tail behind
      rw [behind, List.length_cons] at blanks
      obtain ⟨after, word, same⟩ := eq_ok_of_map reads
      cases same
      have := length_readWord_le word
      omega
    · obtain ⟨after, inner, same⟩ := eq_ok_of_map reads
      cases same
      exact length_readText_lt inner

/-- Truth values. -/
def flag : Decoder Bool where
  run := readFlag
  shortens := by
    intro chars value rest reads
    unfold readFlag at reads
    have blanks := length_skipSpace_le chars
    split at reads
    · rename_i tail behind
      rw [behind, List.length_cons] at blanks
      obtain ⟨after, word, same⟩ := eq_ok_of_map reads
      cases same
      have := length_readWord_le word
      omega
    · rename_i tail behind
      rw [behind, List.length_cons] at blanks
      obtain ⟨after, word, same⟩ := eq_ok_of_map reads
      cases same
      have := length_readWord_le word
      omega
    · simp at reads

/-- Arrays of strings. -/
def texts : Decoder (List String) where
  run := readTexts
  shortens := by
    intro chars value rest reads
    unfold readTexts at reads
    have blanks := length_skipSpace_le chars
    split at reads
    · rename_i tail behind
      rw [behind, List.length_cons] at blanks
      have := length_readItems_lt reads
      omega
    · simp at reads

/-- Null takes characters. -/
theorem length_readNull_lt {chars rest : List Char}
    (reads : readNull chars = .ok rest) : rest.length < chars.length := by
  unfold readNull at reads
  have blanks := length_skipSpace_le chars
  split at reads
  · rename_i tail behind
    rw [behind, List.length_cons] at blanks
    have := length_readWord_le reads
    omega
  · simp at reads

/-- One of several words. -/
def choice {α : Type} (options : List (String × α)) : Decoder α where
  run := readChoice options
  shortens := by
    intro chars value rest reads
    unfold readChoice at reads
    have blanks := length_skipSpace_le chars
    split at reads
    · simp at reads
    · rename_i char tail behind
      rw [behind, List.length_cons] at blanks
      split at reads
      · split at reads
        · simp at reads
        · rename_i word rest' inner
          have := length_readText_lt inner
          rw [List.length_cons] at this
          split at reads
          · simp at reads
          · cases reads
            omega
      · split at reads
        · split at reads
          · simp at reads
          · rename_i word rest₁ inner
            have := length_readText_lt inner
            split at reads
            · simp at reads
            · split at reads
              · simp at reads
              · rename_i rest₂ colon
                have := length_readMark_lt colon
                split at reads
                · simp at reads
                · rename_i rest₃ unit
                  have := length_readNull_lt unit
                  obtain ⟨after, closing, same⟩ := eq_ok_of_map reads
                  cases same
                  have := length_readMark_lt closing
                  omega
        · simp at reads

end Decoder

end WordPackage.Json
