import Mathlib.Data.List.Perm.Subperm
import WordPackage.Json.Record
import WordPackage.Proofs.Json.Decoder

/-!
# Records read from objects

A record is read back from every object that has its fields in any order, may leave out those that
hold their default values, and may have other fields whose names the reader does not know.
-/

namespace WordPackage.Json

namespace Value

@[simp] theorem ofTexts_inj {texts others : List String} :
    ofTexts texts = ofTexts others ↔ texts = others := by
  rw [ofTexts, ofTexts, Value.list.injEq]
  exact (List.map_injective_iff.2 fun _ _ same => Value.text.inj same).eq_iff

@[simp] theorem ofOption_inj {text other : Option String} :
    ofOption text = ofOption other ↔ text = other := by
  cases text <;> cases other <;> simp [ofOption]

end Value

/-- The fields of an object. -/
def Value.fields : Value → List (String × Value)
  | .object fields => fields
  | _ => []

/-- A field of an object. -/
inductive Member where
  | written (field : String × Value)
  | other (body : List Char) (value : List Token)

namespace Member

/-- The tokens of a field. -/
def tokens : Member → List Token
  | .written field => quoted field.1 :: [':'] :: field.2.tokens
  | .other body value => stringToken body :: [':'] :: value

/-- The field that was written. -/
def field? : Member → Option (String × Value)
  | .written field => some field
  | .other _ _ => none

end Member

/-- The tokens of an object. -/
def objectTokens (members : List Member) : List Token :=
  enclosedTokens '\x7b' '\x7d' (members.map Member.tokens)

/-- The fields among those of an object that were written. -/
def writtenFields (members : List Member) : List (String × Value) :=
  members.filterMap Member.field?

/-- Whether a field has a valid value and another name than those that are known. -/
structure IsOther (known : List String) (body : List Char) (value : List Token) : Prop where
  spells : ∃ letters, Spells body letters ∧ ∀ name ∈ known, name.toList ≠ letters
  isValue : IsValue value

/-- Whether an object has the fields that are written in any order, but for some that hold their
default values, and besides any others. -/
structure IsVariant (written defaults : List (String × Value)) (members : List Member) :
    Prop where
  /-- No written field is changed or repeated. -/
  kept : (writtenFields members).Subperm written
  /-- A field that is left out holds its default value. -/
  leftOut : ∀ field ∈ written, field ∈ writtenFields members ∨ field ∈ defaults
  others : ∀ body value, Member.other body value ∈ members →
    IsOther (written.map Prod.fst) body value

theorem writtenFields_map (written : List (String × Value)) :
    writtenFields (written.map Member.written) = written := by
  induction written with
  | nil => rfl
  | cons field written ih =>
      rw [List.map_cons, writtenFields, List.filterMap_cons, ← writtenFields, ih]
      rfl

/-- All fields in their order are a variant. -/
theorem isVariant_map (written defaults : List (String × Value)) :
    IsVariant written defaults (written.map Member.written) where
  kept := by
    rw [writtenFields_map]
  leftOut := by
    intro field member
    rw [writtenFields_map]
    exact .inl member
  others := by
    intro body value member
    obtain ⟨field, -, same⟩ := List.mem_map.1 member
    cases same

/-- The tokens of fields that were written are the tokens of their object. -/
theorem objectTokens_map (written : List (String × Value)) :
    objectTokens (written.map Member.written) = (Value.object written).tokens := by
  have tokens : ∀ fields : List (String × Value),
      (fields.map Member.written).map Member.tokens = Value.fieldTokens fields := by
    intro fields
    induction fields with
    | nil => rfl
    | cons field fields ih =>
        rw [List.map_cons, List.map_cons, ih, Member.tokens, Value.fieldTokens]
  rw [objectTokens, tokens, Value.tokens]

theorem nextName_closing {more : List Token} {chars : List Char} (isFirst : Bool)
    (laid : LaysOut (['\x7d'] :: more) chars) :
    ∃ rest, nextName isFirst chars = .ok (none, rest) ∧ LaysOut more rest := by
  obtain ⟨rest, next, later⟩ := laid.skipSpace_eq rfl
  refine ⟨rest, ?_, later⟩
  rw [nextName, next]
  exact if_pos rfl

/-- A name stands behind a comma, unless it is the first. -/
theorem nextName_some {isFirst : Bool} {body : List Char} {item more : List Token}
    {chars : List Char}
    (laid : LaysOut (behindComma isFirst (stringToken body :: item) ++ more) chars) :
    ∃ rest, nextName isFirst chars = .ok (some (body ++ '"' :: rest), []) ∧
      LaysOut (item ++ more) rest := by
  cases isFirst with
  | false =>
      obtain ⟨behind, comma, laid⟩ := laid.skipSpace_eq rfl
      obtain ⟨rest, next, later⟩ := LaysOut.skipSpace_string laid
      refine ⟨rest, ?_, later⟩
      rw [nextName, comma]
      simp [next]
  | true =>
      obtain ⟨rest, next, later⟩ := LaysOut.skipSpace_string laid
      refine ⟨rest, ?_, later⟩
      rw [nextName, next]
      simp

section Record

variable {σ : Type} {fields : List (Field σ)} {reached : List String → σ}

/-- Whether a field's reader reads a written field and makes the change that it stands for. The
second argument gives the record once the named fields are read. -/
structure Field.ReadsBack (reader : Field σ) (reached : List String → σ)
    (field : String × Value) : Prop where
  name : reader.name = field.1
  reads : ∃ change, reader.decoder.Reads field.2.tokens change ∧
    ∀ seen, change (reached seen) = reached (field.1 :: seen)

theorem Field.readsBack {α : Type} {name : String} {decoder : Decoder α} {value : Value}
    {result : α} {convert : α → σ → σ} (reads : decoder.Reads value.tokens result)
    (changes : ∀ seen, convert result (reached seen) = reached (name :: seen)) :
    Field.ReadsBack ⟨name, decoder.map convert⟩ reached (name, value) where
  name := rfl
  reads := ⟨convert result, reads.map convert, changes⟩

theorem readFields_closing {isFirst : Bool} {seen : List String} {state : σ} {more : List Token}
    {chars : List Char} (laid : LaysOut (['\x7d'] :: more) chars) :
    ∃ rest, readFields fields isFirst seen state chars = .ok (state, rest) ∧
      LaysOut more rest := by
  obtain ⟨rest, next, later⟩ := nextName_closing isFirst laid
  refine ⟨rest, ?_, later⟩
  rw [readFields, next]

/-- A field is read by its reader, in whatever way its name is spelled. -/
theorem readFields_known {isFirst : Bool} {seen : List String} {state : σ} {reader : Field σ}
    {body letters chars : List Char} {value more : List Token} {change : σ → σ}
    (found : fields.find? (fun reader => reader.name.toList = letters) = some reader)
    (spells : Spells body letters) (fresh : reader.name ∉ seen)
    (reads : reader.decoder.Reads value change)
    (laid : LaysOut (behindComma isFirst (stringToken body :: [':'] :: value) ++ more) chars) :
    ∃ rest, readFields fields isFirst seen state chars
        = readFields fields false (reader.name :: seen) (change state) rest ∧
      LaysOut more rest := by
  obtain ⟨behind, next, laid⟩ := nextName_some laid
  obtain ⟨colon, mark, laid⟩ := laid.readMark_eq rfl
  obtain ⟨rest, value, later⟩ := reads more colon laid
  refine ⟨rest, ?_, later⟩
  rw [readFields, next]
  dsimp only
  rw [readString_eq spells]
  dsimp only
  rw [found]
  dsimp only
  rw [if_neg fresh, mark]
  dsimp only
  rw [value]

/-- A written field is read by its reader. -/
theorem readFields_written {isFirst : Bool} {seen : List String} {reader : Field σ}
    {field : String × Value} {more : List Token} {chars : List Char}
    (found : fields.find? (fun reader => reader.name.toList = field.1.toList) = some reader)
    (readsBack : reader.ReadsBack reached field) (fresh : field.1 ∉ seen)
    (laid : LaysOut (behindComma isFirst (Member.written field).tokens ++ more) chars) :
    ∃ rest, readFields fields isFirst seen (reached seen) chars
        = readFields fields false (field.1 :: seen) (reached (field.1 :: seen)) rest ∧
      LaysOut more rest := by
  obtain ⟨named, change, reads, changes⟩ := readsBack
  rw [← changes, ← named]
  exact readFields_known found (spells_escaped field.1.toList) (named ▸ fresh) reads laid

/-- Any other field is skipped. -/
theorem readFields_other {isFirst : Bool} {seen : List String} {state : σ}
    {body letters chars : List Char} {value more : List Token}
    (unknown : fields.find? (fun reader => reader.name.toList = letters) = none)
    (spells : Spells body letters) (isValue : IsValue value) (isDelimited : IsDelimited more)
    (laid : LaysOut (behindComma isFirst (Member.other body value).tokens ++ more) chars) :
    ∃ rest, readFields fields isFirst seen state chars = readFields fields false seen state rest ∧
      LaysOut more rest := by
  obtain ⟨behind, next, laid⟩ := nextName_some laid
  obtain ⟨colon, mark, laid⟩ := laid.readMark_eq rfl
  obtain ⟨rest, skips, later⟩ := isValue.skipValue_eq isDelimited laid
  refine ⟨rest, ?_, later⟩
  rw [readFields, next]
  dsimp only
  rw [readString_eq spells]
  dsimp only
  rw [unknown]
  dsimp only
  rw [mark]
  dsimp only
  rw [skips]

section Named

variable {β : Type} {related : Field σ → β → Prop} {nameOf : β → String} {items : List β}

/-- Among readers that are matched with what they read, each is found by its name. -/
theorem find?_named (named : ∀ reader item, related reader item → reader.name = nameOf item)
    (matched : List.Forall₂ related fields items) (distinct : (items.map nameOf).Nodup) {item : β}
    (member : item ∈ items) :
    ∃ reader, fields.find? (fun reader => reader.name.toList = (nameOf item).toList) = some reader ∧
      related reader item := by
  induction matched with
  | nil => cases member
  | @cons reader first fields items here _ ih =>
      rw [List.map_cons, List.nodup_cons] at distinct
      rcases List.mem_cons.1 member with rfl | later
      · refine ⟨reader, ?_, here⟩
        rw [List.find?_cons_of_pos]
        rw [named reader item here]
        exact decide_eq_true rfl
      · obtain ⟨other, found, reads⟩ := ih distinct.2 later
        refine ⟨other, ?_, reads⟩
        rw [List.find?_cons_of_neg, found]
        intro same
        have sameName : nameOf first = nameOf item :=
          (named reader first here).symm.trans (String.toList_inj.1 (of_decide_eq_true same))
        exact distinct.1 (sameName ▸ List.mem_map_of_mem later)

/-- No reader is found by another name. -/
theorem find?_unnamed (named : ∀ reader item, related reader item → reader.name = nameOf item)
    (matched : List.Forall₂ related fields items) {letters : List Char}
    (apart : ∀ item ∈ items, (nameOf item).toList ≠ letters) :
    fields.find? (fun reader => reader.name.toList = letters) = none := by
  induction matched with
  | nil => rfl
  | @cons reader first fields items here _ ih =>
      rw [List.forall_mem_cons] at apart
      rw [List.find?_cons_of_neg, ih apart.2]
      rw [named reader first here, decide_eq_true_eq]
      exact apart.1

end Named

theorem find?_written {written : List (String × Value)}
    (readsBack : List.Forall₂ (fun reader field => reader.ReadsBack reached field) fields written)
    (distinct : (written.map Prod.fst).Nodup) {field : String × Value} (member : field ∈ written) :
    ∃ reader, fields.find? (fun reader => reader.name.toList = field.1.toList) = some reader ∧
      reader.ReadsBack reached field :=
  find?_named (fun _ _ reads => reads.name) readsBack distinct member

theorem find?_other {written : List (String × Value)}
    (readsBack : List.Forall₂ (fun reader field => reader.ReadsBack reached field) fields written)
    {letters : List Char} (apart : ∀ name ∈ written.map Prod.fst, name.toList ≠ letters) :
    fields.find? (fun reader => reader.name.toList = letters) = none :=
  find?_unnamed (fun _ _ reads => reads.name) readsBack
    fun _ member => apart _ (List.mem_map_of_mem member)

/-- The names of the written fields of an object, the last one first. -/
def namesOf (members : List Member) : List String :=
  ((writtenFields members).map Prod.fst).reverse

theorem namesOf_written_append (field : String × Value) (members : List Member)
    (seen : List String) :
    namesOf (.written field :: members) ++ seen = namesOf members ++ field.1 :: seen := by
  have fields : writtenFields (.written field :: members) = field :: writtenFields members := rfl
  rw [namesOf, fields, List.map_cons, List.reverse_cons, List.append_assoc,
    List.singleton_append, ← namesOf]

/-- Reading the fields of an object reaches what all written ones among them make of a record. -/
theorem readFields_members {written : List (String × Value)}
    (readsBack : List.Forall₂ (fun reader field => reader.ReadsBack reached field) fields written)
    (distinct : (written.map Prod.fst).Nodup) {members : List Member} {isFirst : Bool}
    {seen : List String} {more : List Token} {chars : List Char}
    (known : ∀ field, .written field ∈ members → field ∈ written)
    (fresh : (namesOf members ++ seen).Nodup)
    (others : ∀ body value, .other body value ∈ members →
      IsOther (written.map Prod.fst) body value)
    (laid : LaysOut (remainingTokens isFirst (members.map Member.tokens) ++ ['\x7d'] :: more)
      chars) :
    ∃ rest, readFields fields isFirst seen (reached seen) chars
        = .ok (reached (namesOf members ++ seen), rest) ∧ LaysOut more rest := by
  -- What is reached depends on the names that were read and not on their order: `reached seen`
  -- is the state before the members that are left, whatever order they stand in.
  induction members generalizing isFirst seen chars with
  | nil =>
      rw [List.map_nil, remainingTokens_nil, List.nil_append] at laid
      exact readFields_closing laid
  | cons member members ih =>
      rw [List.map_cons, remainingTokens_cons, List.append_assoc] at laid
      have knownLater := fun field member => known field (List.mem_cons_of_mem _ member)
      have othersLater := fun body value member => others body value (List.mem_cons_of_mem _ member)
      cases member with
      | written field =>
          rw [namesOf_written_append] at fresh ⊢
          obtain ⟨reader, found, reads⟩ :=
            find?_written readsBack distinct (known field List.mem_cons_self)
          have isNew : field.1 ∉ seen := (List.nodup_cons.1 (List.nodup_append.1 fresh).2.1).1
          obtain ⟨rest, step, later⟩ := readFields_written found reads isNew laid
          obtain ⟨last, run, final⟩ := ih knownLater fresh othersLater later
          exact ⟨last, step.trans run, final⟩
      | other body value =>
          obtain ⟨⟨letters, spells, apart⟩, isValue⟩ := others body value List.mem_cons_self
          have isDelimited : IsDelimited
              (remainingTokens false (members.map Member.tokens) ++ ['\x7d'] :: more) :=
            isDelimited_items .object _ more
          obtain ⟨rest, step, later⟩ :=
            readFields_other (find?_other readsBack apart) spells isValue isDelimited laid
          obtain ⟨last, run, final⟩ := ih knownLater fresh othersLater later
          exact ⟨last, step.trans run, final⟩

theorem ite_of_covered {α : Type} {isRead : Prop} [Decidable isRead] {value default : α}
    (covered : isRead ∨ value = default) : (if isRead then value else default) = value := by
  rcases covered with read | rfl
  · exact if_pos read
  · exact ite_self value

/-- Whether written fields stand for a record, those that are left out for what the record has
without them. -/
structure StandsFor (fields : List (Field σ)) (reached : List String → σ)
    (written defaults : List (String × Value)) (record : σ) : Prop where
  distinct : (written.map Prod.fst).Nodup
  readsBack : List.Forall₂ (fun reader field => reader.ReadsBack reached field) fields written
  /-- The record is reached once all fields are read that do not hold their default values. -/
  complete : ∀ seen, (∀ field ∈ written, field.1 ∈ seen ∨ field ∈ defaults) →
    reached seen = record

namespace StandsFor

variable {written defaults : List (String × Value)} {record : σ}

/-- Every variant of the fields of a record is read as the record. -/
theorem decodeRecord_eq (standsFor : StandsFor fields reached written defaults record)
    {members : List Member} {text : String} (isVariant : IsVariant written defaults members)
    (laid : LaysOut (objectTokens members) text.toList) :
    decodeRecord fields (reached []) text = .ok record := by
  obtain ⟨kept, leftOut, others⟩ := isVariant
  have known : ∀ field, .written field ∈ members → field ∈ written := by
    intro field member
    exact kept.subset (List.mem_filterMap.2 ⟨_, member, rfl⟩)
  have fresh : (namesOf members ++ []).Nodup := by
    have sparse : ((writtenFields members).map Prod.fst).Nodup := by
      obtain ⟨fields, arranged, kept⟩ := kept
      exact (arranged.map Prod.fst).nodup_iff.1 ((kept.map Prod.fst).nodup standsFor.distinct)
    rw [List.append_nil, namesOf]
    exact (List.reverse_perm _).nodup_iff.2 sparse
  obtain ⟨behind, next, laid⟩ := laid.skipSpace_eq rfl
  have inside : LaysOut (remainingTokens true (members.map Member.tokens) ++ [['\x7d']])
      behind := laid
  obtain ⟨rest, read, later⟩ :=
    readFields_members standsFor.readsBack standsFor.distinct known fresh others inside
  have whole : reached (namesOf members ++ []) = record := by
    apply standsFor.complete
    intro field member
    rcases leftOut field member with here | isDefault
    · refine .inl ?_
      rw [List.append_nil, namesOf, List.mem_reverse]
      exact List.mem_map_of_mem here
    · exact .inr isDefault
  rw [List.nil_append] at next
  rw [decodeRecord, readRecord, next]
  simp only [if_true, read, later.skipSpace_eq_nil, List.isEmpty_nil, whole]

theorem decodeRecord_object (standsFor : StandsFor fields reached written defaults record)
    {text : String} (laid : LaysOut (Value.object written).tokens text.toList) :
    decodeRecord fields (reached []) text = .ok record := by
  rw [← objectTokens_map] at laid
  exact standsFor.decodeRecord_eq (isVariant_map written defaults) laid

end StandsFor

end Record

end WordPackage.Json
