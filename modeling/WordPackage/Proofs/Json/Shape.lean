import WordPackage.Proofs.Json.Decoder
import WordPackage.Proofs.Json.Passed

/-!
# Shapes of values

A shape is what the grammar says about values of one kind: their tokens, and what these stand for.
A decoder accepts a shape if it reads the values of the shape and no others, each as what it stands
for.
-/

namespace WordPackage.Json

/-- The values of one kind: their tokens and what each stands for. -/
abbrev Shape (α : Type) := List Token → α → Prop

namespace Shape

variable {α β : Type}

/-- Strings, in any spelling. -/
inductive IsText : Shape String where
  | intro {body letters : List Char} (spells : Spells body letters) :
      IsText [stringToken body] (.ofList letters)

/-- Truth values. -/
inductive IsFlag : Shape Bool where
  | intro (value : Bool) : IsFlag (Value.flag value).tokens value

/-- Words that stand for what they are listed with: as a string, or as the name of the only field
of an object, whose value is null. -/
inductive IsChoice (options : List (String × α)) : Shape α where
  | word {body letters : List Char} {option : α} (spells : Spells body letters)
      (listed : options.lookup (.ofList letters) = some option) :
      IsChoice options [stringToken body] option
  | object {body letters : List Char} {option : α} (spells : Spells body letters)
      (listed : options.lookup (.ofList letters) = some option) :
      IsChoice options [['\x7b'], stringToken body, [':'], "null".toList, ['\x7d']] option

/-- Values of a shape, standing for what a function makes of them. -/
inductive Mapped (shape : Shape α) (convert : α → β) : Shape β where
  | intro {tokens : List Token} {value : α} (isValue : shape tokens value) :
      Mapped shape convert tokens (convert value)

end Shape

/-- Whether a decoder reads the values of a shape and nothing else. -/
structure Decoder.Accepts {α : Type} (decoder : Decoder α) (shape : Shape α) : Prop where
  reads : ∀ {tokens : List Token} {value : α}, shape tokens value → decoder.Reads tokens value
  isRead : ∀ {chars rest : List Char} {value : α}, decoder.run chars = .ok (value, rest) →
    ∃ tokens, shape tokens value ∧ Lead tokens chars rest
  isStart : ∀ {tokens : List Token} {value : α}, shape tokens value →
    ∀ later : List Token, IsStart (tokens ++ later)

/-- What is read as a string spells the text. -/
theorem spells_of_readText {chars rest : List Char} {text : String}
    (reads : readText chars = .ok (text, rest)) :
    ∃ body letters, Spells body letters ∧ text = .ofList letters ∧
      Lead [stringToken body] chars rest := by
  unfold readText at reads
  split at reads
  · rename_i tail next
    obtain ⟨⟨letters, behind⟩, read, same⟩ := eq_ok_of_map reads
    cases same
    obtain ⟨body, rfl, spells⟩ := spells_of_readString read
    exact ⟨body, letters, spells, rfl, lead_string next⟩
  · cases reads

/-- What is read as null is the word. -/
theorem lead_of_readNull {chars rest : List Char} (reads : readNull chars = .ok rest) :
    Lead ["null".toList] chars rest := by
  unfold readNull at reads
  split at reads
  · rename_i tail next
    apply Lead.of_skipSpace
    rw [next, eq_append_of_readWord reads]
    rfl
  · cases reads

/-- What is read as a truth value is one. -/
theorem isFlag_of_readFlag {chars rest : List Char} {value : Bool}
    (reads : readFlag chars = .ok (value, rest)) :
    ∃ tokens, Shape.IsFlag tokens value ∧ Lead tokens chars rest := by
  unfold readFlag at reads
  split at reads
  · rename_i tail next
    obtain ⟨behind, word, same⟩ := eq_ok_of_map reads
    cases same
    refine ⟨_, .intro true, Lead.of_skipSpace ?_⟩
    rw [next, eq_append_of_readWord word]
    rfl
  · rename_i tail next
    obtain ⟨behind, word, same⟩ := eq_ok_of_map reads
    cases same
    refine ⟨_, .intro false, Lead.of_skipSpace ?_⟩
    rw [next, eq_append_of_readWord word]
    rfl
  · cases reads

/-- What is read as one of several words is one. -/
theorem isChoice_of_readChoice {α : Type} {options : List (String × α)} {chars rest : List Char}
    {option : α} (reads : readChoice options chars = .ok (option, rest)) :
    ∃ tokens, Shape.IsChoice options tokens option ∧ Lead tokens chars rest := by
  unfold readChoice at reads
  split at reads
  · cases reads
  rename_i char tail next
  have blanks : Lead [] chars (char :: tail) := next ▸ Lead.skipSpace chars
  split at reads
  · split at reads
    · cases reads
    · rename_i word behind text
      obtain ⟨body, letters, spells, rfl, string⟩ := spells_of_readText text
      split at reads
      · cases reads
      · rename_i listed
        cases reads
        exact ⟨_, .word spells listed, blanks.trans string⟩
  split at reads
  · rename_i bracket
    have opening : Lead [['\x7b']] chars tail := .mark (bracket ▸ next)
    split at reads
    · cases reads
    · rename_i word behind text
      obtain ⟨body, letters, spells, rfl, string⟩ := spells_of_readText text
      split at reads
      · cases reads
      · rename_i listed
        split at reads
        · cases reads
        · rename_i behind' colon
          split at reads
          · cases reads
          · rename_i behind'' null
            obtain ⟨last, closing, same⟩ := eq_ok_of_map reads
            cases same
            have field := (lead_of_readMark colon).trans
              ((lead_of_readNull null).trans (lead_of_readMark closing))
            exact ⟨_, .object spells listed, opening.trans (string.trans field)⟩
  · cases reads

namespace Decoder

variable {α β : Type}

/-- A function is applied to what is read. -/
theorem Accepts.map {decoder : Decoder α} {shape : Shape α} (accepts : decoder.Accepts shape)
    (convert : α → β) : (decoder.map convert).Accepts (shape.Mapped convert) where
  reads := by
    rintro tokens _ ⟨isValue⟩
    exact (accepts.reads isValue).map convert
  isRead := by
    intro chars rest result run
    simp only [Decoder.map] at run
    split at run
    · cases run
    · rename_i value behind inner
      cases run
      obtain ⟨tokens, isValue, lead⟩ := accepts.isRead inner
      exact ⟨tokens, .intro isValue, lead⟩
  isStart := by
    rintro tokens _ ⟨isValue⟩
    exact accepts.isStart isValue

/-- Strings are read. -/
theorem accepts_text : text.Accepts Shape.IsText where
  reads := by
    rintro tokens _ ⟨spells⟩ more chars laid
    exact readText_string spells laid
  isRead := by
    intro chars rest value run
    obtain ⟨body, letters, spells, rfl, lead⟩ := spells_of_readText run
    exact ⟨_, .intro spells, lead⟩
  isStart := by
    rintro tokens _ ⟨spells⟩ later
    exact isStart_of_mark List.mem_cons_self

theorem accepts_flag : flag.Accepts Shape.IsFlag where
  reads := by
    rintro tokens value ⟨⟩
    exact reads_flag value
  isRead := isFlag_of_readFlag
  isStart := by
    rintro tokens value ⟨⟩ later
    exact (Value.isValue_tokens (.flag value)).isStart later

/-- A listed word is read as the name of the only field of an object. -/
theorem reads_choice_object {options : List (String × α)} {body letters : List Char} {option : α}
    (spells : Spells body letters) (listed : options.lookup (.ofList letters) = some option) :
    (choice options).Reads [['\x7b'], stringToken body, [':'], "null".toList, ['\x7d']]
      option := by
  intro more chars laid
  obtain ⟨inside, bracket, laid⟩ := laid.skipSpace_eq rfl
  obtain ⟨behind, text, laid⟩ := readText_string spells laid
  obtain ⟨value, colon, laid⟩ := laid.readMark_eq rfl
  have laid : LaysOut (('n' :: "ull".toList) :: ['\x7d'] :: more) value := laid
  obtain ⟨last, null, laid⟩ := laid.skipSpace_eq rfl
  obtain ⟨rest, closing, later⟩ := laid.readMark_eq rfl
  refine ⟨rest, ?_, later⟩
  rw [List.nil_append] at bracket
  have isNull : readNull value = .ok last := by
    rw [readNull, null]
    exact readWord_append _ _
  rw [choice]
  simp only [readChoice, bracket, if_neg (show '\x7b' ≠ '"' by decide), if_true, text, listed,
    colon, isNull, closing]
  rfl

/-- Listed words are read. -/
theorem accepts_choice (options : List (String × α)) :
    (choice options).Accepts (Shape.IsChoice options) where
  reads := by
    rintro tokens option (⟨spells, listed⟩ | ⟨spells, listed⟩)
    · exact reads_choice_string spells listed
    · exact reads_choice_object spells listed
  isRead := isChoice_of_readChoice
  isStart := by
    rintro tokens option (⟨spells, listed⟩ | ⟨spells, listed⟩) later
    · exact isStart_of_mark List.mem_cons_self
    · exact isStart_of_mark (by decide)

end Decoder

end WordPackage.Json
