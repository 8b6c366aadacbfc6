import WordPackage.Markup.Event
import WordPackage.Proofs.Markup.Escaping

/-!
# Written tags

A tag that was written from a name and attributes is read back as that name and
those attributes, each value as it stands in the document. The names have to be
free of the characters that structure a tag; the values may hold anything.
-/

namespace WordPackage.Markup

/-- Whether a character may stand in a name: it separates and ends nothing. -/
def isNameChar (char : Char) : Bool :=
  !isSpace char && char ∉ ['=', '<', '>', '/', '\'', '"', '!', '?']

/-- A name with which a tag is read back as it was written. -/
def IsName (name : List Char) : Prop :=
  name ≠ [] ∧ ∀ char ∈ name, isNameChar char = true

instance (name : List Char) : Decidable (IsName name) :=
  have := List.decidableBAll (fun char => isNameChar char = true) name
  inferInstanceAs (Decidable (_ ∧ _))

/-- An attribute as it is written inside a tag, with the blank before it. -/
def writtenAttribute (pair : String × String) : List Char :=
  ' ' :: pair.1.toList ++ "=\"".toList ++ escape pair.2.toList ++ ['"']

theorem tagContent_eq (name : String) (attributes : List (String × String)) :
    tagContent name attributes = name.toList ++ attributes.flatMap writtenAttribute := rfl

namespace IsName

variable {name : List Char}

theorem ne_of_mem (isName : IsName name) {mark char : Char} (structural : isNameChar mark = false)
    (member : char ∈ name) : char ≠ mark := by
  rintro rfl
  rw [isName.2 char member] at structural
  cases structural

theorem isNotSpace (isName : IsName name) {char : Char} (member : char ∈ name) :
    Attribute.isNotSpace char = true := by
  have plain := isName.2 char member
  simp only [isNameChar, Bool.and_eq_true] at plain
  exact plain.1

theorem isKeyChar (isName : IsName name) {char : Char} (member : char ∈ name) :
    Attribute.isKeyChar char = true := by
  have blank := isName.isNotSpace member
  have equals : char ≠ '=' := isName.ne_of_mem rfl member
  simp only [Attribute.isNotSpace] at blank
  simp [Attribute.isKeyChar, blank, equals]

theorem exists_cons (isName : IsName name) : ∃ first more, name = first :: more := by
  cases name with
  | nil => exact absurd rfl isName.1
  | cons first more => exact ⟨first, more, rfl⟩

end IsName

namespace Event

/-- Characters inside of which no tag ends and at whose end no quotation is open. -/
def IsPassed (front : List Char) : Prop :=
  ∀ passed rest : List Char,
    splitTag none passed (front ++ rest) = splitTag none (front.reverse ++ passed) rest

namespace IsPassed

theorem append {front back : List Char} (frontPassed : IsPassed front)
    (backPassed : IsPassed back) : IsPassed (front ++ back) := by
  intro passed rest
  rw [List.append_assoc, frontPassed, backPassed, List.reverse_append, List.append_assoc]

/-- Characters that neither end a tag nor quote are passed. -/
theorem of_free {front : List Char}
    (free : ∀ char ∈ front, char ≠ '>' ∧ char ≠ '"' ∧ char ≠ '\'') : IsPassed front := by
  intro passed rest
  induction front generalizing passed with
  | nil => rfl
  | cons char tail ih =>
      obtain ⟨notEnd, notQuote, notApos⟩ := free char List.mem_cons_self
      rw [List.cons_append, splitTag, if_neg notEnd, List.reverse_cons, List.append_assoc]
      simpa [notQuote, notApos] using
        ih (fun other member => free other (List.mem_cons_of_mem _ member)) (char :: passed)

/-- What stands in quotation marks is passed, whatever else it holds. -/
theorem quoted {value : List Char} (free : '"' ∉ value) : IsPassed ('"' :: value ++ ['"']) := by
  have inside : ∀ (value : List Char), '"' ∉ value → ∀ passed rest : List Char,
      splitTag (some '"') passed (value ++ '"' :: rest)
        = splitTag none ('"' :: value.reverse ++ passed) rest := by
    intro value
    induction value with
    | nil =>
        intro _ passed rest
        simp [splitTag]
    | cons char tail ih =>
        intro free passed rest
        rw [List.mem_cons, not_or] at free
        rw [List.cons_append, splitTag, if_neg (Ne.symm free.1), ih free.2]
        simp
  intro passed rest
  have begun : splitTag none passed ('"' :: (value ++ '"' :: rest))
      = splitTag (some '"') ('"' :: passed) (value ++ '"' :: rest) := by
    simp [splitTag]
  simpa [begun] using inside value free ('"' :: passed) rest

theorem of_isName {name : List Char} (isName : IsName name) : IsPassed name :=
  of_free fun _ member =>
    ⟨isName.ne_of_mem rfl member, isName.ne_of_mem rfl member, isName.ne_of_mem rfl member⟩

theorem writtenAttribute {pair : String × String} (isName : IsName pair.1.toList) :
    IsPassed (writtenAttribute pair) := by
  have blank : IsPassed [' '] := of_free (by simp)
  have equals : IsPassed ['='] := of_free (by simp)
  have value := quoted (quote_notMem_escape pair.2.toList)
  have whole := ((blank.append (of_isName isName)).append equals).append value
  simpa [Markup.writtenAttribute] using whole

/-- The content of a written tag is passed. -/
theorem tagContent {name : String} {attributes : List (String × String)}
    (isName : IsName name.toList) (keys : ∀ pair ∈ attributes, IsName pair.1.toList) :
    IsPassed (tagContent name attributes) := by
  rw [tagContent_eq]
  refine (of_isName isName).append ?_
  induction attributes with
  | nil => exact of_free (by simp)
  | cons pair rest ih =>
      rw [List.flatMap_cons]
      exact (writtenAttribute (keys pair List.mem_cons_self)).append
        (ih fun other member => keys other (List.mem_cons_of_mem _ member))

theorem splitTag_eq {content : List Char} (passed : IsPassed content) (rest : List Char) :
    splitTag none [] (content ++ '>' :: rest) = some (content, rest) := by
  rw [passed]
  simp [splitTag]

end IsPassed

end Event

namespace Attribute

theorem dropWhile_append_cons {drops : Char → Bool} {front : List Char} {stop : Char}
    (front_drops : ∀ char ∈ front, drops char = true) (stops : drops stop = false)
    (rest : List Char) :
    (front ++ stop :: rest).dropWhile drops = stop :: rest := by
  rw [List.dropWhile_append_of_pos front_drops, List.dropWhile_cons_of_neg (by simp [stops])]

theorem takeWhile_append_cons {takes : Char → Bool} {front : List Char} {stop : Char}
    (front_takes : ∀ char ∈ front, takes char = true) (stops : takes stop = false)
    (rest : List Char) :
    (front ++ stop :: rest).takeWhile takes = front := by
  rw [List.takeWhile_append_of_pos front_takes, List.takeWhile_cons_of_neg (by simp [stops]),
    List.append_nil]

theorem Remainder.dropWhile_append_cons {drops : Char → Bool} {front : List Char} {stop : Char}
    (front_drops : ∀ char ∈ front, drops char = true) (stops : drops stop = false)
    (position : Nat) (rest : List Char) :
    ∃ position', Remainder.dropWhile drops ⟨position, front ++ stop :: rest⟩
      = ⟨position', stop :: rest⟩ :=
  ⟨_, by rw [Remainder.dropWhile, Attribute.dropWhile_append_cons front_drops stops]⟩

theorem Remainder.dropWhile_cons {drops : Char → Bool} {stop : Char} (stops : drops stop = false)
    (position : Nat) (rest : List Char) :
    Remainder.dropWhile drops ⟨position, stop :: rest⟩ = ⟨position, stop :: rest⟩ := by
  simp [Remainder.dropWhile, stops, Text.width]

/-- A value in quotation marks is read as it stands there. -/
theorem findValue_quoted (seen : List (List Char × Nat)) (key : List Char) (position : Nat)
    {value : List Char} (free : '"' ∉ value) (rest : List Char) :
    ∃ position', findValue seen key ⟨position, '"' :: value ++ '"' :: rest⟩
      = ⟨.ok ⟨.ofList key, .ofList value⟩, seen, ⟨position', rest⟩⟩ := by
  have inside : ∀ char ∈ value, (char != '"') = true := fun _ member =>
    bne_iff_ne.2 (ne_of_mem_of_not_mem member free)
  have begins : isSpace '"' = false := rfl
  have closes : ('"' != '"') = false := rfl
  have begun := Remainder.dropWhile_cons begins position (value ++ '"' :: rest)
  obtain ⟨closing, ended⟩ := Remainder.dropWhile_append_cons inside closes (position + 1) rest
  refine ⟨closing + 1, ?_⟩
  rw [List.cons_append]
  simp only [findValue, begun, ended, takeWhile_append_cons inside closes, decide_true,
    Bool.true_or, if_true]

/-- A written attribute whose key is new is read as its key and its written value. -/
theorem find_written {seen : List (List Char × Nat)} {pair : String × String}
    (isName : IsName pair.1.toList) (unseen : seen.lookup pair.1.toList = none)
    (position : Nat) (rest : List Char) :
    ∃ start position', find seen ⟨position, writtenAttribute pair ++ rest⟩
      = some ⟨.ok ⟨pair.1, escaped pair.2⟩, (pair.1.toList, start) :: seen,
          ⟨position', rest⟩⟩ := by
  obtain ⟨first, more, key⟩ := isName.exists_cons
  have isKey : ∀ char ∈ more, isKeyChar char = true := fun char member =>
    isName.isKeyChar (key ▸ List.mem_cons_of_mem first member)
  have notBlank : isSpace first = false := by
    simpa [isNotSpace] using isName.isNotSpace (key ▸ List.mem_cons_self : first ∈ pair.1.toList)
  have written : writtenAttribute pair ++ rest
      = [' '] ++ first :: (more ++ '=' :: ('"' :: escape pair.2.toList ++ '"' :: rest)) := by
    simp [writtenAttribute, key]
  -- The blank before the key, the key, and nothing between it and the equals sign.
  have blank : ∀ char ∈ [' '], isSpace char = true := by simp [isSpace]
  have keyEnds : isKeyChar '=' = false := rfl
  have unspaced : isSpace '=' = false := rfl
  obtain ⟨start, begun⟩ := Remainder.dropWhile_append_cons blank notBlank position
    (more ++ '=' :: ('"' :: escape pair.2.toList ++ '"' :: rest))
  obtain ⟨equals, keyed⟩ := Remainder.dropWhile_append_cons isKey keyEnds
    (start + first.utf8Size) ('"' :: escape pair.2.toList ++ '"' :: rest)
  obtain ⟨position', value⟩ := findValue_quoted ((first :: more, start) :: seen) (first :: more)
    (equals + 1) (quote_notMem_escape pair.2.toList) rest
  refine ⟨start, position', ?_⟩
  rw [written, key]
  rw [key] at unseen
  simp only [find, begun, keyed, Remainder.dropWhile_cons unspaced,
    takeWhile_append_cons isKey keyEnds, unseen, value, escaped]
  rw [← key, String.ofList_toList]

/-- Written attributes with distinct new keys are read one after another. -/
theorem collect_written {attributes : List (String × String)}
    (keys : ∀ pair ∈ attributes, IsName pair.1.toList)
    (distinct : (attributes.map Prod.fst).Nodup) {seen : List (List Char × Nat)}
    (unseen : ∀ pair ∈ attributes, seen.lookup pair.1.toList = none) (position : Nat) :
    collect seen ⟨position, attributes.flatMap writtenAttribute⟩
      = attributes.map fun pair => .ok ⟨pair.1, escaped pair.2⟩ := by
  induction attributes generalizing seen position with
  | nil =>
      rw [collect]
      rfl
  | cons pair rest ih =>
      rw [List.map_cons, List.nodup_cons] at distinct
      obtain ⟨start, position', reads⟩ := find_written (keys pair List.mem_cons_self)
        (unseen pair List.mem_cons_self) position (rest.flatMap writtenAttribute)
      rw [List.flatMap_cons, collect]
      split
      · rename_i ended
        rw [ended] at reads
        cases reads
      · rename_i found reads'
        obtain rfl := Option.some.inj (reads'.symm.trans reads)
        refine congrArg _ (ih (fun other member => keys other (List.mem_cons_of_mem _ member))
          distinct.2 (fun other member => ?_) position')
        have apart : (other.1.toList == pair.1.toList) = false := by
          rw [beq_eq_false_iff_ne, ne_eq, String.toList_inj]
          exact fun same => distinct.1 (same ▸ List.mem_map_of_mem member)
        rw [List.lookup_cons, apart]
        exact unseen other (List.mem_cons_of_mem _ member)

end Attribute

namespace Tag

/-- The tag that is written for a name with attributes. -/
def written (name : String) (attributes : List (String × String)) : Tag :=
  ⟨tagContent name attributes⟩

variable {name : String} {attributes : List (String × String)}

theorem written_attributes_start (attributes : List (String × String)) :
    attributes.flatMap writtenAttribute = [] ∨
      ∃ rest, attributes.flatMap writtenAttribute = ' ' :: rest := by
  cases attributes with
  | nil => exact .inl rfl
  | cons pair rest => exact .inr ⟨_, rfl⟩

theorem name_written (isName : IsName name.toList) :
    (written name attributes).name = name.toList := by
  have plain : ∀ char ∈ name.toList, Attribute.isNotSpace char = true :=
    fun _ member => isName.isNotSpace member
  rw [Tag.name, written, tagContent_eq, List.takeWhile_append_of_pos plain]
  rcases written_attributes_start attributes with none | ⟨rest, some⟩
  · rw [none, List.takeWhile_nil, List.append_nil]
  · rw [some, List.takeWhile_cons_of_neg (by decide), List.append_nil]

/-- A written tag has the attributes it was written with, each value as written. -/
theorem attributes_written (isName : IsName name.toList)
    (keys : ∀ pair ∈ attributes, IsName pair.1.toList)
    (distinct : (attributes.map Prod.fst).Nodup) :
    (written name attributes).attributes
      = attributes.map fun pair => .ok ⟨pair.1, escaped pair.2⟩ := by
  have plain : ∀ char ∈ name.toList, Attribute.isNotSpace char = true :=
    fun _ member => isName.isNotSpace member
  have behindName : (name.toList ++ attributes.flatMap writtenAttribute).dropWhile
      Attribute.isNotSpace = attributes.flatMap writtenAttribute := by
    rw [List.dropWhile_append_of_pos plain]
    rcases written_attributes_start attributes with none | ⟨rest, some⟩
    · rw [none, List.dropWhile_nil]
    · rw [some, List.dropWhile_cons_of_neg (by decide)]
  rw [Tag.attributes, written, Attribute.Remainder.dropWhile, tagContent_eq, behindName]
  exact Attribute.collect_written keys distinct (fun _ _ => rfl) _

/-- The value of an attribute of a written tag is the given one as written. -/
theorem attribute?_written (isName : IsName name.toList)
    (keys : ∀ pair ∈ attributes, IsName pair.1.toList)
    (distinct : (attributes.map Prod.fst).Nodup) (key : String) :
    (written name attributes).attribute? key
      = (Assignments.get? key attributes).map escaped := by
  rw [attribute?, attributes_written isName keys distinct]
  clear keys distinct
  induction attributes with
  | nil => rfl
  | cons pair rest ih =>
      rw [List.map_cons, List.findSome?_cons, Assignments.get?]
      by_cases here : pair.1 = key
      · simp [here]
      · simp [here, ih]

theorem isNamed_written (isName : IsName name.toList) (expected : String) :
    (written name attributes).isNamed expected = hasLocalName name.toList expected.toList := by
  rw [isNamed, name_written isName]

end Tag

end WordPackage.Markup
