import WordPackage.Json.Decoder
import WordPackage.Proofs.Json.Skipped

/-!
# Decoders of written values

A decoder of a shape takes exactly the tokens of a written value of that shape, whatever blanks
stand between them, and gives what was written.
-/

namespace WordPackage.Json

/-- Whether a decoder takes exactly these tokens and gives this result. -/
def Decoder.Reads {α : Type} (decoder : Decoder α) (tokens : List Token) (result : α) : Prop :=
  ∀ (more : List Token) (chars : List Char), LaysOut (tokens ++ more) chars →
    ∃ rest, decoder.run chars = .ok (result, rest) ∧ LaysOut more rest

namespace Decoder

variable {α β : Type}

theorem Reads.map {decoder : Decoder α} {tokens : List Token} {result : α}
    (reads : decoder.Reads tokens result) (convert : α → β) :
    (decoder.map convert).Reads tokens (convert result) := by
  intro more chars laid
  obtain ⟨rest, run, later⟩ := reads more chars laid
  refine ⟨rest, ?_, later⟩
  rw [Decoder.map]
  simp only [run]

end Decoder

theorem readText_eq {body letters chars rest : List Char} (spells : Spells body letters)
    (next : skipSpace chars = '"' :: (body ++ '"' :: rest)) :
    readText chars = .ok (.ofList letters, rest) := by
  rw [readText, next]
  simp only [readString_eq spells, Except.map]

theorem readText_string {body letters : List Char} {more : List Token} {chars : List Char}
    (spells : Spells body letters) (laid : LaysOut (stringToken body :: more) chars) :
    ∃ rest, readText chars = .ok (.ofList letters, rest) ∧ LaysOut more rest := by
  obtain ⟨rest, next, later⟩ := laid.skipSpace_string
  exact ⟨rest, readText_eq spells next, later⟩

theorem readText_quoted {text : String} {more : List Token} {chars : List Char}
    (laid : LaysOut (quoted text :: more) chars) :
    ∃ rest, readText chars = .ok (text, rest) ∧ LaysOut more rest := by
  have read := readText_string (spells_escaped text.toList) laid
  rwa [String.ofList_toList] at read

theorem nextItem_closing {more : List Token} {chars : List Char} (isFirst : Bool)
    (laid : LaysOut ([']'] :: more) chars) :
    ∃ rest, nextItem isFirst chars = .ok (none, rest) ∧ LaysOut more rest := by
  obtain ⟨rest, next, later⟩ := laid.skipSpace_eq rfl
  refine ⟨rest, ?_, later⟩
  rw [nextItem, next]
  exact if_pos rfl

/-- An item stands behind a comma, unless it is the first. -/
theorem nextItem_some {isFirst : Bool} {item more : List Token} {chars : List Char}
    (isStart : IsStart (item ++ more)) (laid : LaysOut (behindComma isFirst item ++ more) chars) :
    ∃ inner, nextItem isFirst chars = .ok (some inner, []) ∧ LaysOut (item ++ more) inner := by
  cases isFirst with
  | false =>
      obtain ⟨behind, comma, laid⟩ := laid.skipSpace_eq rfl
      obtain ⟨char, rest, next, later, noEnd⟩ := isStart.skipSpace_eq laid
      refine ⟨char :: rest, ?_, later⟩
      rw [List.nil_append] at comma
      rw [nextItem, comma]
      simp only [next]
      exact if_neg (noEnd .list)
  | true =>
      obtain ⟨char, rest, next, later, noEnd⟩ := isStart.skipSpace_eq laid
      refine ⟨char :: rest, ?_, later⟩
      rw [nextItem, next]
      exact if_neg (noEnd .list)

/-- The items of an array of texts are read up to the bracket. -/
theorem readItems_eq (isFirst : Bool) (texts : List String) {more : List Token}
    {chars : List Char}
    (laid : LaysOut (remainingTokens isFirst (texts.map fun text => [quoted text])
      ++ [']'] :: more) chars) :
    ∃ rest, readItems isFirst chars = .ok (texts, rest) ∧ LaysOut more rest := by
  induction texts generalizing isFirst chars with
  | nil =>
      rw [List.map_nil, remainingTokens_nil, List.nil_append] at laid
      obtain ⟨rest, next, later⟩ := nextItem_closing isFirst laid
      refine ⟨rest, ?_, later⟩
      rw [readItems, next]
  | cons text texts ih =>
      rw [List.map_cons, remainingTokens_cons, List.append_assoc] at laid
      obtain ⟨item, next, behind⟩ := nextItem_some (isStart_of_mark List.mem_cons_self) laid
      obtain ⟨rest, read, others⟩ := readText_quoted behind
      obtain ⟨rest', later, final⟩ := ih false others
      refine ⟨rest', ?_, final⟩
      rw [readItems, next]
      dsimp only
      rw [read]
      dsimp only
      rw [later, Except.map]

namespace Decoder

theorem reads_text (value : String) : text.Reads (Value.text value).tokens value := by
  intro more chars laid
  exact readText_quoted laid

/-- Optional texts are read back: null is no text, and the empty text is one. -/
theorem reads_optionalText (value : Option String) :
    optionalText.Reads (Value.ofOption value).tokens value := by
  intro more chars laid
  cases value with
  | none =>
      have laid : LaysOut (('n' :: "ull".toList) :: more) chars := laid
      obtain ⟨rest, next, later⟩ := laid.skipSpace_eq rfl
      refine ⟨rest, ?_, later⟩
      simp [optionalText, readOptionalText, next, readWord, Except.map]
  | some value =>
      obtain ⟨rest, read, later⟩ := readText_quoted laid
      obtain ⟨behind, next, -⟩ := LaysOut.skipSpace_string laid
      refine ⟨rest, ?_, later⟩
      simp [optionalText, readOptionalText, next, read, Except.map]

/-- Truth values are read back. -/
theorem reads_flag (value : Bool) : flag.Reads (Value.flag value).tokens value := by
  intro more chars laid
  cases value with
  | false =>
      have laid : LaysOut (('f' :: "alse".toList) :: more) chars := laid
      obtain ⟨rest, next, later⟩ := laid.skipSpace_eq rfl
      refine ⟨rest, ?_, later⟩
      simp [flag, readFlag, next, readWord, Except.map]
  | true =>
      have laid : LaysOut (('t' :: "rue".toList) :: more) chars := laid
      obtain ⟨rest, next, later⟩ := laid.skipSpace_eq rfl
      refine ⟨rest, ?_, later⟩
      simp [flag, readFlag, next, readWord, Except.map]

theorem itemTokens_map_text (values : List String) :
    Value.itemTokens (values.map .text) = values.map fun value => [quoted value] := by
  induction values with
  | nil => rfl
  | cons value values ih => rw [List.map_cons, Value.itemTokens, ih, List.map_cons, Value.tokens]

/-- Arrays of texts are read back. -/
theorem reads_texts (values : List String) :
    texts.Reads (Value.ofTexts values).tokens values := by
  intro more chars laid
  rw [Value.ofTexts, Value.tokens, itemTokens_map_text, enclosedTokens, List.cons_append,
    List.append_assoc, List.singleton_append] at laid
  obtain ⟨behind, next, laid⟩ := laid.skipSpace_eq rfl
  rw [List.nil_append] at next
  obtain ⟨rest, read, later⟩ := readItems_eq true values laid
  refine ⟨rest, ?_, later⟩
  rw [texts]
  simp only [readTexts, next]
  exact read

/-- A string that spells a listed word is read as what the word is listed with. -/
theorem reads_choice_string {options : List (String × α)} {body letters : List Char} {option : α}
    (spells : Spells body letters) (listed : options.lookup (.ofList letters) = some option) :
    (choice options).Reads [stringToken body] option := by
  intro more chars laid
  obtain ⟨rest, next, later⟩ := LaysOut.skipSpace_string laid
  have read := readText_eq spells (skipSpace_append isBlank_nil rfl (body ++ '"' :: rest))
  rw [List.nil_append] at read
  refine ⟨rest, ?_, later⟩
  rw [choice]
  simp only [readChoice, next, if_true, read, listed]

theorem reads_choice {options : List (String × α)} {word : String} {option : α}
    (listed : options.lookup word = some option) :
    (choice options).Reads (Value.text word).tokens option := by
  apply reads_choice_string (spells_escaped word.toList)
  rwa [String.ofList_toList]

end Decoder

end WordPackage.Json
