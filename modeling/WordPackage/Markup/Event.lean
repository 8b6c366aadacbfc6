import WordPackage.Markup.Attribute
import WordPackage.Text.Blank

/-!
# Reading documents

A document is read as the sequence of its tags, texts and other markup. Blanks
around a text do not belong to it, and a text of blanks alone is no event. End
tags have to match the innermost open element; elements still open at the end
are no fault. Reading stops at the first fault, after the events before it.
-/

namespace WordPackage.Markup

/-- One piece of markup, or one text, of a document. -/
inductive Event where
  | start (tag : Tag)
  | empty (tag : Tag)
  | finish (name : List Char)
  | text (chars : List Char)
  | characterData (chars : List Char)
  | comment (chars : List Char)
  | declaration (chars : List Char)
  | instruction (chars : List Char)
  | doctype (chars : List Char)
  deriving DecidableEq, Repr

namespace Event

/-- What stands before the first `>` that ends a tag, and what follows it. A `>`
between quotation marks ends no tag; `quoted` is the mark that is open. The
characters passed are given in reverse. -/
def splitTag : Option Char → List Char → List Char → Option (List Char × List Char)
  | _, _, [] => none
  | none, passed, char :: rest =>
      if char = '>' then some (passed.reverse, rest)
      else
        splitTag (if char = '"' || char = '\'' then some char else none) (char :: passed) rest
  | some mark, passed, char :: rest =>
      splitTag (if char = mark then none else some mark) (char :: passed) rest

/-- What stands before the first `>` at which `ends` holds of the characters
before it, and what follows that `>`. The characters passed are given and
handed to `ends` in reverse. -/
def splitClose (ends : List Char → Bool) : List Char → List Char →
    Option (List Char × List Char)
  | _, [] => none
  | passed, char :: rest =>
      if char = '>' && ends passed then some (passed.reverse, rest)
      else splitClose ends (char :: passed) rest

/-- A comment ends behind two hyphens that are not those of its beginning. -/
def endsComment (passed : List Char) : Bool :=
  "--".toList.isPrefixOf passed && 5 ≤ passed.length

/-- Character data ends behind two brackets. -/
def endsCharacterData (passed : List Char) : Bool :=
  "]]".toList.isPrefixOf passed

/-- An instruction ends behind a question mark. -/
def endsInstruction (passed : List Char) : Bool :=
  "?".toList.isPrefixOf passed

/-- What stands before the `>` that closes a document type, and what follows it.
So many brackets opened inside are still to be closed before. The characters
passed are given in reverse. -/
def splitDoctype : Nat → List Char → List Char → Option (List Char × List Char)
  | _, _, [] => none
  | opened, passed, char :: rest =>
      if char = '>' then
        match opened with
        | 0 => some (passed.reverse, rest)
        | outer + 1 => splitDoctype outer (char :: passed) rest
      else splitDoctype (if char = '<' then opened + 1 else opened) (char :: passed) rest

/-- The event of an exclamation mark and what follows it. -/
def ofExclamation (chars : List Char) : Except Fault (Event × List Char) :=
  match chars.drop 1 with
  | '-' :: _ =>
      match splitClose endsComment [] chars with
      | some (content, rest) =>
          if "!--".toList.isPrefixOf content then
            .ok (.comment ((content.drop 3).dropLast.dropLast), rest)
          else .error .unclosedComment
      | none => .error .unclosedComment
  | '[' :: _ =>
      match splitClose endsCharacterData [] chars with
      | some (content, rest) =>
          if "![CDATA[".toList.isPrefixOf content then
            .ok (.characterData ((content.drop 8).dropLast.dropLast), rest)
          else .error .unclosedCharacterData
      | none => .error .unclosedCharacterData
  | letter :: _ =>
      if letter = 'D' || letter = 'd' then
        match splitDoctype 0 [] chars with
        | some (content, rest) =>
            if "!doctype".toList.isPrefixOf (content.map Char.toLower) then
              match (content.drop 8).dropWhile isSpace with
              | [] => .error .namelessDoctype
              | named => .ok (.doctype named, rest)
            else .error .unclosedDoctype
        | none => .error .unclosedDoctype
      else .error .unknownMarkup
  | [] => .error .unknownMarkup

/-- The event of a question mark and what follows it. -/
def ofQuestion (chars : List Char) : Except Fault (Event × List Char) :=
  match splitClose endsInstruction [] chars with
  | none => .error .unclosedInstruction
  | some (content, rest) =>
      if content.length < 2 then .error .unclosedInstruction
      else
        let inner := (content.drop 1).dropLast
        if "xml".toList.isPrefixOf inner && (inner.drop 3).head?.all isSpace then
          .ok (.declaration inner, rest)
        else .ok (.instruction inner, rest)

/-- The name of an end tag, whose content is given from behind the slash. -/
def endName (content : List Char) : List Char :=
  match Text.dropEndWhile isSpace content with
  | [] => content
  | name => name

/-- The event of a tag. -/
def ofTag (chars : List Char) : Except Fault (Event × List Char) :=
  match splitTag none [] chars with
  | none => .error .unclosedTag
  | some ('/' :: content, rest) => .ok (.finish (endName content), rest)
  | some (content, rest) =>
      if content.getLast? = some '/' then .ok (.empty ⟨content.dropLast⟩, rest)
      else .ok (.start ⟨content⟩, rest)

/-- The event that starts with an opening bracket, given what follows the
bracket, and what follows the event. -/
def ofMarkup (chars : List Char) : Except Fault (Event × List Char) :=
  match chars with
  | '!' :: _ => ofExclamation chars
  | '?' :: _ => ofQuestion chars
  | _ => ofTag chars

/-- The names of the open elements after an event, innermost first. -/
def nest (opened : List (List Char)) : Event → Except Fault (List (List Char))
  | .start tag => .ok (tag.name :: opened)
  | .finish name =>
      match opened with
      | [] => .error (.unmatchedEnd (.ofList name))
      | expected :: outer =>
          if name = expected then .ok outer
          else .error (.mismatchedEnd (.ofList expected) (.ofList name))
  | _ => .ok opened

/-- The tag of a start tag or of an empty tag. -/
def tag? : Event → Option Tag
  | .start tag => some tag
  | .empty tag => some tag
  | _ => none

/-- The end of a tag leaves less than the tag started with. -/
theorem length_splitTag_lt {quoted : Option Char} {passed chars content rest : List Char}
    (splits : splitTag quoted passed chars = some (content, rest)) :
    rest.length < chars.length := by
  induction chars generalizing quoted passed with
  | nil => simp [splitTag] at splits
  | cons char tail ih =>
      rw [List.length_cons]
      cases quoted with
      | none =>
          unfold splitTag at splits
          split at splits
          · cases splits
            omega
          · exact Nat.lt_succ_of_lt (ih splits)
      | some mark =>
          unfold splitTag at splits
          exact Nat.lt_succ_of_lt (ih splits)

/-- The end of a document type leaves less than it started with. -/
theorem length_splitDoctype_lt {opened : Nat} {passed chars content rest : List Char}
    (splits : splitDoctype opened passed chars = some (content, rest)) :
    rest.length < chars.length := by
  induction chars generalizing opened passed with
  | nil => simp [splitDoctype] at splits
  | cons char tail ih =>
      rw [List.length_cons]
      unfold splitDoctype at splits
      split at splits
      · split at splits
        · cases splits
          omega
        · exact Nat.lt_succ_of_lt (ih splits)
      · exact Nat.lt_succ_of_lt (ih splits)

/-- The end of other markup leaves less than the markup started with. -/
theorem length_splitClose_lt {ends : List Char → Bool} {passed chars content rest : List Char}
    (splits : splitClose ends passed chars = some (content, rest)) :
    rest.length < chars.length := by
  induction chars generalizing passed with
  | nil => simp [splitClose] at splits
  | cons char tail ih =>
      unfold splitClose at splits
      split at splits
      · cases splits
        simp
      · have := ih splits
        simp only [List.length_cons]
        omega

/-- An event takes at least one character behind its opening bracket. -/
theorem length_ofMarkup_lt {chars rest : List Char} {event : Event}
    (reads : ofMarkup chars = .ok (event, rest)) : rest.length < chars.length := by
  unfold ofMarkup at reads
  split at reads
  · unfold ofExclamation at reads
    repeat' split at reads
    all_goals first
      | (cases reads; apply length_splitClose_lt; assumption)
      | (cases reads; apply length_splitDoctype_lt; assumption)
      | simp at reads
  · unfold ofQuestion at reads
    split at reads
    · simp at reads
    · simp only at reads
      repeat' split at reads
      all_goals first
        | (cases reads; apply length_splitClose_lt; assumption)
        | simp at reads
  · unfold ofTag at reads
    repeat' split at reads
    all_goals first
      | (cases reads; apply length_splitTag_lt; assumption)
      | simp at reads

end Event

/-- What reading a document gives: the events up to the first fault, and the fault. -/
structure Reading where
  events : List Event
  fault : Option Fault
  deriving DecidableEq, Repr

namespace Reading

/-- A reading with an event before it. -/
def cons (event : Event) (reading : Reading) : Reading :=
  { reading with events := event :: reading.events }

/-- A reading with a text before it, unless the text is blank. -/
def consText (chars : List Char) (reading : Reading) : Reading :=
  match Text.dropEndWhile isSpace (chars.dropWhile isSpace) with
  | [] => reading
  | shown => reading.cons (.text shown)

/-- Read on from behind a tag while the elements of the given names are open. -/
def read (opened : List (List Char)) (chars : List Char) : Reading :=
  consText (chars.takeWhile (· != '<')) <|
    match _bracket : chars.dropWhile (· != '<') with
    | [] => ⟨[], none⟩
    | _ :: rest =>
        match _event : Event.ofMarkup rest with
        | .error fault => ⟨[], some fault⟩
        | .ok (event, rest') =>
            match event.nest opened with
            | .error fault => ⟨[], some fault⟩
            | .ok opened' => (read opened' rest').cons event
termination_by chars.length
decreasing_by
  have shorter := Event.length_ofMarkup_lt _event
  have upTo := Attribute.length_dropWhile_le (· != '<') chars
  rw [_bracket, List.length_cons] at upTo
  omega

/-- Read a document. One byte order mark at its start is dropped. -/
def ofText (text : String) : Reading :=
  match text.toList with
  | '\uFEFF' :: rest => read [] rest
  | chars => read [] chars

/-- The start tags and empty tags, in document order. -/
def tags (reading : Reading) : List Tag :=
  reading.events.filterMap Event.tag?

end Reading

end WordPackage.Markup
