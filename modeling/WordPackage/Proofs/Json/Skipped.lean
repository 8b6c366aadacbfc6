import WordPackage.Json.Skipped
import WordPackage.Proofs.Json.Lexeme
import WordPackage.Proofs.Json.Number

/-!
# Skipped values

The grammar of values, and that a value of any shape is skipped as a whole, however deeply it is
nested and whatever blanks stand between its tokens.
-/

namespace WordPackage.Json

/-- The bracket that begins a container. -/
def Frame.opening : Frame → Char
  | .list => '['
  | .object => '\x7b'

/-- What stands before an item of a container: nothing in an array, a name and a colon in an
object. -/
inductive IsLabel : Frame → List Token → Prop where
  | list : IsLabel .list []
  | object {body : List Char} (isBody : IsBody body) : IsLabel .object [stringToken body, [':']]

/-- The values of one token. -/
inductive IsScalar : Token → Prop where
  | word {word : String} (listed : word ∈ ["null", "true", "false"]) : IsScalar word.toList
  | number {token : Token} (isNumber : IsNumber token) : IsScalar token
  | text {body : List Char} (isBody : IsBody body) : IsScalar (stringToken body)

/-- The tokens of items, each behind its label. -/
def labelled (items : List (List Token × List Token)) : List (List Token) :=
  items.map fun item => item.1 ++ item.2

/-- The tokens of the JSON values, nested to any depth. -/
inductive IsValue : List Token → Prop where
  | scalar {token : Token} (isScalar : IsScalar token) : IsValue [token]
  | container {frame : Frame} {items : List (List Token × List Token)}
      (labels : ∀ item ∈ items, IsLabel frame item.1) (values : ∀ item ∈ items, IsValue item.2) :
      IsValue (enclosedTokens frame.opening frame.closing (labelled items))

/-- Tokens that may follow a value. -/
def IsDelimited (tokens : List Token) : Prop :=
  ∀ token ∈ tokens.head?, token = [','] ∨ token = [']'] ∨ token = ['\x7d']

/-- No number extends into what follows it. -/
theorem IsDelimited.endsNumber {tokens : List Token} {chars : List Char}
    (isDelimited : IsDelimited tokens) (laid : LaysOut tokens chars) : EndsNumber chars := by
  have blankEnds : ∀ char : Char, char.isWhitespace = true →
      char.isDigit = false ∧ char ≠ '.' ∧ char ≠ 'e' ∧ char ≠ 'E' := by
    intro char isBlank
    simp only [Char.isWhitespace, Bool.or_eq_true, decide_eq_true_eq] at isBlank
    rcases isBlank with ((rfl | rfl) | rfl) | rfl <;> decide
  cases laid with
  | blank isBlank =>
      intro char first
      exact blankEnds char (isBlank char (List.mem_of_head? first))
  | @token front rest delimiter tokens isBlank later =>
      cases front with
      | cons blank front =>
          rintro char ⟨⟩
          exact blankEnds blank (isBlank blank List.mem_cons_self)
      | nil =>
          rcases isDelimited delimiter rfl with rfl | rfl | rfl
          all_goals
            rintro char ⟨⟩
            decide

/-- Tokens whose first character is neither a blank nor the end of a container. -/
def IsStart (tokens : List Token) : Prop :=
  ∃ first letters later, tokens = (first :: letters) :: later ∧ first.isWhitespace = false ∧
    ∀ frame : Frame, first ≠ frame.closing

theorem isStart_of_mark {first : Char} {letters : List Char} {later : List Token}
    (isMark : first ∈ ['"', '-', '[', '\x7b', 'n', 't', 'f']) :
    IsStart ((first :: letters) :: later) := by
  simp only [List.mem_cons, List.not_mem_nil, or_false] at isMark
  rcases isMark with rfl | rfl | rfl | rfl | rfl | rfl | rfl
  all_goals
    refine ⟨_, letters, later, rfl, rfl, ?_⟩
    rintro (_ | _) <;> decide

theorem isWhitespace_eq_false {digit : Char} (isDigit : digit.isDigit = true) :
    digit.isWhitespace = false := by
  by_contra isBlank
  simp only [Bool.not_eq_false, Char.isWhitespace, Bool.or_eq_true, decide_eq_true_eq] at isBlank
  rcases isBlank with ((rfl | rfl) | rfl) | rfl <;> cases isDigit

theorem isStart_of_digit {first : Char} {letters : List Char} {later : List Token}
    (isDigit : first.isDigit = true) : IsStart ((first :: letters) :: later) := by
  refine ⟨first, letters, later, rfl, isWhitespace_eq_false isDigit, ?_⟩
  rintro (_ | _) rfl <;> cases isDigit

theorem IsInteger.exists_cons {integer : List Char} (isInteger : IsInteger integer) :
    ∃ digit later, integer = digit :: later ∧ digit.isDigit = true := by
  rcases isInteger with rfl | ⟨are, -⟩
  · exact ⟨'0', [], rfl, rfl⟩
  · obtain ⟨digit, later, begins, isDigit, -⟩ := are.exists_cons
    exact ⟨digit, later, begins, isDigit⟩

/-- How a scalar begins. -/
theorem IsScalar.isStart {token : Token} (isScalar : IsScalar token) (later : List Token) :
    IsStart (token :: later) := by
  cases isScalar with
  | word listed =>
      simp only [List.mem_cons, List.not_mem_nil, or_false] at listed
      rcases listed with rfl | rfl | rfl
      all_goals
        apply isStart_of_mark
        decide
  | number isNumber =>
      obtain ⟨rfl | rfl, isInteger, -, -⟩ := isNumber
      · obtain ⟨digit, rest, rfl, isDigit⟩ := isInteger.exists_cons
        exact isStart_of_digit isDigit
      · exact isStart_of_mark (by decide)
  | text isBody => exact isStart_of_mark (by decide)

theorem IsValue.isStart {value : List Token} (isValue : IsValue value) (later : List Token) :
    IsStart (value ++ later) := by
  cases isValue with
  | scalar isScalar => exact isScalar.isStart later
  | @container frame =>
      apply isStart_of_mark
      cases frame <;> decide

theorem IsLabel.isStart {frame : Frame} {label value : List Token}
    (isLabel : IsLabel frame label) (isValue : IsValue value) (later : List Token) :
    IsStart (label ++ (value ++ later)) := by
  cases isLabel with
  | list => exact isValue.isStart later
  | object isBody => exact isStart_of_mark (by decide)

theorem IsStart.skipSpace_eq {tokens : List Token} {chars : List Char} (isStart : IsStart tokens)
    (laid : LaysOut tokens chars) :
    ∃ char rest, skipSpace chars = char :: rest ∧ LaysOut tokens (char :: rest) ∧
      ∀ frame : Frame, char ≠ frame.closing := by
  obtain ⟨first, letters, later, rfl, isSolid, noEnd⟩ := isStart
  obtain ⟨rest, next, behind⟩ := laid.skipSpace_eq isSolid
  exact ⟨first, letters ++ rest, next, .token isBlank_nil behind, noEnd⟩

/-- A literal name is skipped. -/
theorem skipStart_word {word : String} {more : List Token} {chars : List Char}
    (listed : word ∈ ["null", "true", "false"]) (laid : LaysOut (word.toList :: more) chars) :
    ∃ rest, skipStart chars = .ok (none, rest) ∧ LaysOut more rest := by
  simp only [List.mem_cons, List.not_mem_nil, or_false] at listed
  rcases listed with rfl | rfl | rfl
  · have laid : LaysOut (('n' :: "ull".toList) :: more) chars := laid
    obtain ⟨rest, next, later⟩ := laid.skipSpace_eq rfl
    refine ⟨rest, ?_, later⟩
    simp [skipStart, next, readWord, Except.map]
  · have laid : LaysOut (('t' :: "rue".toList) :: more) chars := laid
    obtain ⟨rest, next, later⟩ := laid.skipSpace_eq rfl
    refine ⟨rest, ?_, later⟩
    simp [skipStart, next, readWord, Except.map]
  · have laid : LaysOut (('f' :: "alse".toList) :: more) chars := laid
    obtain ⟨rest, next, later⟩ := laid.skipSpace_eq rfl
    refine ⟨rest, ?_, later⟩
    simp [skipStart, next, readWord, Except.map]

/-- A number is skipped up to where it ends. -/
theorem skipStart_number {token : Token} {more : List Token} {chars : List Char}
    (isNumber : IsNumber token) (isDelimited : IsDelimited more)
    (laid : LaysOut (token :: more) chars) :
    ∃ rest, skipStart chars = .ok (none, rest) ∧ LaysOut more rest := by
  obtain ⟨isSign, isInteger, isFraction, isExponent⟩ := isNumber
  rename_i sign integer fraction exponent
  have whole : ∀ rest, LaysOut more rest →
      skipNumber (integer ++ (fraction ++ (exponent ++ rest))) = .ok rest := fun rest later =>
    skipNumber_eq isInteger isFraction isExponent (isDelimited.endsNumber later)
  rcases isSign with rfl | rfl
  · obtain ⟨digit, digits, rfl, isDigit⟩ := isInteger.exists_cons
    have apart : digit ≠ 'n' ∧ digit ≠ 't' ∧ digit ≠ 'f' ∧ digit ≠ '-' := by
      refine ⟨?_, ?_, ?_, ?_⟩ <;> rintro rfl <;> cases isDigit
    obtain ⟨noNull, noTrue, noFalse, noSign⟩ := apart
    obtain ⟨rest, next, later⟩ := laid.skipSpace_eq (isWhitespace_eq_false isDigit)
    have skips := whole rest later
    simp only [List.append_eq, List.append_assoc, List.cons_append] at next skips
    refine ⟨rest, ?_, later⟩
    simp [skipStart, next, noNull, noTrue, noFalse, noSign, isDigit, skips, Except.map]
  · obtain ⟨rest, next, later⟩ := laid.skipSpace_eq rfl
    refine ⟨rest, ?_, later⟩
    simp [skipStart, next, whole rest later, Except.map]

/-- A scalar is skipped as a whole. -/
theorem skipStart_scalar {token : Token} {more : List Token} {chars : List Char}
    (isScalar : IsScalar token) (isDelimited : IsDelimited more)
    (laid : LaysOut (token :: more) chars) :
    ∃ rest, skipStart chars = .ok (none, rest) ∧ LaysOut more rest := by
  cases isScalar with
  | word listed => exact skipStart_word listed laid
  | number isNumber => exact skipStart_number isNumber isDelimited laid
  | text isBody =>
      obtain ⟨rest, next, later⟩ := laid.skipSpace_string
      refine ⟨rest, ?_, later⟩
      simp [skipStart, next, skipString_eq isBody, Except.map]

/-- A container is begun with its bracket. -/
theorem skipStart_opening {frame : Frame} {chars rest : List Char}
    (next : skipSpace chars = frame.opening :: rest) :
    skipStart chars =
      match skipSpace rest with
      | [] => .error .truncated
      | char :: rest' =>
          if char = frame.closing then .ok (none, rest')
          else (skipLabel frame (char :: rest')).map fun rest => (some frame, rest) := by
  unfold skipStart
  rw [next]
  cases frame <;> rfl

/-- A label is skipped. -/
theorem IsLabel.skipLabel_eq {frame : Frame} {label more : List Token} {chars : List Char}
    (isLabel : IsLabel frame label) (laid : LaysOut (label ++ more) chars) :
    ∃ rest, skipLabel frame chars = .ok rest ∧ LaysOut more rest := by
  cases isLabel with
  | list => exact ⟨chars, rfl, laid⟩
  | object isBody =>
      obtain ⟨rest, next, behind⟩ := laid.skipSpace_string
      obtain ⟨rest', colon, later⟩ := behind.readMark_eq rfl
      refine ⟨rest', ?_, later⟩
      rw [skipLabel, skipName, next]
      simp only [if_true, skipString_eq isBody]
      exact colon

/-- The containers around a value that was skipped are left or continued. -/
def skipAfter (frames : List Frame) (chars : List Char) : Except Fault (List Char) :=
  match skipEnds frames chars with
  | .error fault => .error fault
  | .ok ([], rest) => .ok rest
  | .ok (frame :: outer, rest) => skipWithin (frame :: outer) rest

/-- A value without items of its own is followed by what is around it. -/
theorem skipWithin_whole {frames : List Frame} {chars rest : List Char}
    (start : skipStart chars = .ok (none, rest)) :
    skipWithin frames chars = skipAfter frames rest := by
  rw [skipWithin, start]
  dsimp only
  split
  all_goals
    rename_i ends
    rw [skipAfter, ends]

theorem skipWithin_enters {frames : List Frame} {frame : Frame} {chars rest : List Char}
    (start : skipStart chars = .ok (some frame, rest)) :
    skipWithin frames chars = skipWithin (frame :: frames) rest := by
  rw [skipWithin, start]

/-- A comma and a label lead to the next item. -/
theorem skipAfter_comma (frames : List Frame) {frame : Frame} {label more : List Token}
    {chars : List Char} (isLabel : IsLabel frame label)
    (laid : LaysOut ([','] :: (label ++ more)) chars) :
    ∃ rest, skipAfter (frame :: frames) chars = skipWithin (frame :: frames) rest ∧
      LaysOut more rest := by
  obtain ⟨rest, next, behind⟩ := laid.skipSpace_eq rfl
  obtain ⟨rest', label, later⟩ := isLabel.skipLabel_eq behind
  rw [List.nil_append] at next
  refine ⟨rest', ?_, later⟩
  rw [skipAfter, skipEnds, next]
  simp only [if_true, label, Except.map]

/-- The closing bracket leads out of a container. -/
theorem skipAfter_closing {frames : List Frame} {frame : Frame} {more : List Token}
    {chars : List Char} (laid : LaysOut ([frame.closing] :: more) chars) :
    ∃ rest, skipAfter (frame :: frames) chars = skipAfter frames rest ∧ LaysOut more rest := by
  have isMark : frame.closing.isWhitespace = false ∧ frame.closing ≠ ',' := by
    cases frame <;> decide
  obtain ⟨rest, next, later⟩ := laid.skipSpace_eq isMark.1
  rw [List.nil_append] at next
  refine ⟨rest, ?_, later⟩
  rw [skipAfter, skipEnds, next]
  simp only [if_neg isMark.2, if_true]
  rfl

/-- What skipping makes of the tokens of a value, wherever it stands. -/
def Skips (value : List Token) : Prop :=
  ∀ (frames : List Frame) (more : List Token) (chars : List Char), IsDelimited more →
    LaysOut (value ++ more) chars →
      ∃ rest, skipWithin frames chars = skipAfter frames rest ∧ LaysOut more rest

/-- What stands behind an item of a container may follow a value. -/
theorem isDelimited_items (frame : Frame) (items : List (List Token)) (more : List Token) :
    IsDelimited (items.flatMap ([','] :: ·) ++ [frame.closing] :: more) := by
  cases items with
  | nil =>
      rintro token ⟨⟩
      cases frame with
      | list => exact .inr (.inl rfl)
      | object => exact .inr (.inr rfl)
  | cons item items =>
      rintro token ⟨⟩
      exact .inl rfl

/-- The items behind the first one are skipped together with the bracket that ends them. -/
theorem skipAfter_items {frame : Frame} {items : List (List Token × List Token)}
    (labels : ∀ item ∈ items, IsLabel frame item.1) (skips : ∀ item ∈ items, Skips item.2)
    (frames : List Frame) (more : List Token) {chars : List Char}
    (laid : LaysOut ((labelled items).flatMap ([','] :: ·) ++ [frame.closing] :: more) chars) :
    ∃ rest, skipAfter (frame :: frames) chars = skipAfter frames rest ∧ LaysOut more rest := by
  induction items generalizing chars with
  | nil => exact skipAfter_closing laid
  | cons item items ih =>
      rw [List.forall_mem_cons] at labels skips
      rw [labelled, List.map_cons, ← labelled, List.flatMap_cons, List.cons_append,
        List.cons_append, List.append_assoc, List.append_assoc] at laid
      obtain ⟨rest, comma, behind⟩ := skipAfter_comma frames labels.1 laid
      have isDelimited := isDelimited_items frame (labelled items) more
      obtain ⟨rest', value, later⟩ := skips.1 (frame :: frames) _ rest isDelimited behind
      obtain ⟨last, others, final⟩ := ih labels.2 skips.2 later
      exact ⟨last, comma.trans (value.trans others), final⟩

/-- A container of values that are skipped is skipped. -/
theorem skips_container {frame : Frame} {items : List (List Token × List Token)}
    (labels : ∀ item ∈ items, IsLabel frame item.1) (values : ∀ item ∈ items, IsValue item.2)
    (skips : ∀ item ∈ items, Skips item.2) :
    Skips (enclosedTokens frame.opening frame.closing (labelled items)) := by
  intro frames more chars isDelimited laid
  have isSolid : frame.opening.isWhitespace = false ∧ frame.closing.isWhitespace = false := by
    cases frame <;> decide
  rw [enclosedTokens, List.cons_append, List.append_assoc, List.singleton_append] at laid
  obtain ⟨rest, next, behind⟩ := laid.skipSpace_eq isSolid.1
  rw [List.nil_append] at next
  have start := skipStart_opening next
  cases items with
  | nil =>
      obtain ⟨rest', closing, later⟩ := behind.skipSpace_eq isSolid.2
      rw [List.nil_append] at closing
      rw [closing] at start
      simp only [if_true] at start
      exact ⟨rest', skipWithin_whole start, later⟩
  | cons item items =>
      rw [List.forall_mem_cons] at labels skips values
      -- No item begins like the end of the container, so the first character decides.
      rw [labelled, List.map_cons, ← labelled, commaTokens_cons, List.append_assoc,
        List.append_assoc] at behind
      obtain ⟨char, rest', solid, behind', noEnd⟩ :=
        (labels.1.isStart values.1 _).skipSpace_eq behind
      obtain ⟨inside, label, content⟩ := labels.1.skipLabel_eq behind'
      rw [solid] at start
      simp only [if_neg (noEnd frame), label, Except.map] at start
      have between := isDelimited_items frame (labelled items) more
      obtain ⟨rest'', value, later⟩ := skips.1 (frame :: frames) _ inside between content
      obtain ⟨last, others, final⟩ := skipAfter_items labels.2 skips.2 frames more later
      exact ⟨last, (skipWithin_enters start).trans (value.trans others), final⟩

theorem IsValue.skips {value : List Token} (isValue : IsValue value) : Skips value := by
  -- The induction is for all containers around the value, since its items stand in one more.
  induction isValue with
  | scalar isScalar =>
      intro frames more chars isDelimited laid
      obtain ⟨rest, start, later⟩ := skipStart_scalar isScalar isDelimited laid
      exact ⟨rest, skipWithin_whole start, later⟩
  | container labels values ih => exact skips_container labels values ih

theorem IsValue.skipValue_eq {value more : List Token} {chars : List Char}
    (isValue : IsValue value) (isDelimited : IsDelimited more)
    (laid : LaysOut (value ++ more) chars) :
    ∃ rest, skipValue chars = .ok rest ∧ LaysOut more rest :=
  isValue.skips [] more chars isDelimited laid

theorem Spells.isBody {body text : List Char} (spells : Spells body text) : IsBody body := by
  induction spells with
  | nil => exact .nil
  | plain isPlain _ ih => exact .plain isPlain ih
  | short listed _ ih => exact .short listed ih
  | unicode digits _ _ ih => exact .unicode digits ih
  | pair digits digits' _ _ _ ih => exact .unicode digits (.unicode digits' ih)

theorem isBody_escaped (text : String) : IsBody (text.toList.flatMap escapeChar) :=
  (spells_escaped text.toList).isBody

namespace Value

mutual

/-- Every value that is written is valid. -/
theorem isValue_tokens : ∀ value : Value, IsValue value.tokens
  | .null => .scalar (.word (by decide))
  | .flag true => .scalar (.word (by decide))
  | .flag false => .scalar (.word (by decide))
  | .text value => .scalar (.text (isBody_escaped value))
  | .list items => by
      obtain ⟨listed, same, labels, values⟩ := isValue_itemTokens items
      rw [tokens, ← same]
      exact .container labels values
  | .object fields => by
      obtain ⟨listed, same, labels, values⟩ := isValue_fieldTokens fields
      rw [tokens, ← same]
      exact .container labels values

/-- The items of an array are valid. -/
theorem isValue_itemTokens : ∀ items : List Value, ∃ listed, labelled listed = itemTokens items ∧
    (∀ item ∈ listed, IsLabel .list item.1) ∧ ∀ item ∈ listed, IsValue item.2
  | [] => ⟨[], rfl, List.forall_mem_nil _, List.forall_mem_nil _⟩
  | item :: items => by
      obtain ⟨listed, same, labels, values⟩ := isValue_itemTokens items
      refine ⟨([], item.tokens) :: listed, ?_, List.forall_mem_cons.2 ⟨.list, labels⟩,
        List.forall_mem_cons.2 ⟨isValue_tokens item, values⟩⟩
      rw [itemTokens, ← same]
      rfl

/-- The fields of an object are valid. -/
theorem isValue_fieldTokens : ∀ fields : List (String × Value),
    ∃ listed, labelled listed = fieldTokens fields ∧
      (∀ item ∈ listed, IsLabel .object item.1) ∧ ∀ item ∈ listed, IsValue item.2
  | [] => ⟨[], rfl, List.forall_mem_nil _, List.forall_mem_nil _⟩
  | (name, value) :: fields => by
      obtain ⟨listed, same, labels, values⟩ := isValue_fieldTokens fields
      refine ⟨([quoted name, [':']], value.tokens) :: listed, ?_,
        List.forall_mem_cons.2 ⟨.object (isBody_escaped name), labels⟩,
        List.forall_mem_cons.2 ⟨isValue_tokens value, values⟩⟩
      rw [fieldTokens, ← same]
      rfl

end

end Value

end WordPackage.Json
