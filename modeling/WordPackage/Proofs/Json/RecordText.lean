import WordPackage.Proofs.Json.Record
import WordPackage.Proofs.Json.Shape

/-!
# The texts of records

What a JSON text says about a record: an object changes the fields that it names, each of them
once, and may have other fields with any values; an array changes the first fields in their order.
Fields that are not given stay as they are. A text is read as a record exactly if it says so.
-/

namespace WordPackage.Json

variable {σ : Type}

/-- A field of a record: its name, and the values that it may have with the change each makes. -/
structure FieldShape (σ : Type) where
  name : String
  values : Shape (σ → σ)

/-- The members of an object, the known names among them, and what they make of a record. -/
inductive IsObject (shapes : List (FieldShape σ)) :
    List (List Token) → List String → σ → σ → Prop where
  | nil {record : σ} : IsObject shapes [] [] record record
  | known {shape : FieldShape σ} {body : List Char} {value : List Token} {change : σ → σ}
      {members : List (List Token)} {names : List String} {record result : σ}
      (listed : shape ∈ shapes) (spells : Spells body shape.name.toList)
      (isValue : shape.values value change) (once : shape.name ∉ names)
      (later : IsObject shapes members names (change record) result) :
      IsObject shapes ((stringToken body :: [':'] :: value) :: members) (shape.name :: names)
        record result
  | other {body letters : List Char} {value : List Token} {members : List (List Token)}
      {names : List String} {record result : σ} (spells : Spells body letters)
      (unknown : ∀ shape ∈ shapes, shape.name.toList ≠ letters) (isValue : IsValue value)
      (later : IsObject shapes members names record result) :
      IsObject shapes ((stringToken body :: [':'] :: value) :: members) names record result

/-- The items of an array, for the fields in their order, and what they make of a record. -/
inductive IsSequence : List (FieldShape σ) → List (List Token) → σ → σ → Prop where
  | nil {shapes : List (FieldShape σ)} {record : σ} : IsSequence shapes [] record record
  | cons {shape : FieldShape σ} {shapes : List (FieldShape σ)} {item : List Token}
      {items : List (List Token)} {change : σ → σ} {record result : σ}
      (isValue : shape.values item change)
      (later : IsSequence shapes items (change record) result) :
      IsSequence (shape :: shapes) (item :: items) record result

/-- The tokens of a record, given what it is where nothing is said about it. -/
inductive IsRecord (shapes : List (FieldShape σ)) (initial : σ) : List Token → σ → Prop where
  | object {members : List (List Token)} {names : List String} {record : σ}
      (isObject : IsObject shapes members names initial record) :
      IsRecord shapes initial (enclosedTokens '\x7b' '\x7d' members) record
  | array {items : List (List Token)} {record : σ}
      (isSequence : IsSequence shapes items initial record) :
      IsRecord shapes initial (enclosedTokens '[' ']' items) record

/-- Whether a field's reader has the name of the field and reads its values. -/
structure Field.Accepts (reader : Field σ) (shape : FieldShape σ) : Prop where
  name : reader.name = shape.name
  decoder : reader.decoder.Accepts shape.values

theorem behindComma_eq_append (isFirst : Bool) (tokens : List Token) :
    behindComma isFirst tokens = behindComma isFirst [] ++ tokens := by
  cases isFirst <;> rfl

/-- What is read as the end of an array is its bracket. -/
theorem lead_of_nextItem_end {isFirst : Bool} {chars rest : List Char}
    (reads : nextItem isFirst chars = .ok (none, rest)) : Lead [[']']] chars rest := by
  unfold nextItem at reads
  split at reads
  · cases reads
  · rename_i char tail next
    split at reads
    · rename_i bracket
      cases reads
      exact .mark (bracket ▸ next)
    · repeat' split at reads
      all_goals cases reads

/-- What is read up to an item of an array is a comma, or nothing before the first. -/
theorem lead_of_nextItem {isFirst : Bool} {chars item rest : List Char}
    (reads : nextItem isFirst chars = .ok (some item, rest)) :
    Lead (behindComma isFirst []) chars item := by
  unfold nextItem at reads
  split at reads
  · cases reads
  · rename_i char tail next
    split at reads
    · cases reads
    · split at reads
      · rename_i first
        cases reads
        rw [first]
        exact next ▸ Lead.skipSpace chars
      · rename_i notFirst
        split at reads
        · rename_i comma
          split at reads
          · cases reads
          · rename_i char' tail' next'
            split at reads
            · cases reads
            · cases reads
              rw [Bool.eq_false_iff.2 notFirst]
              exact (Lead.mark (comma ▸ next)).trans (next' ▸ Lead.skipSpace tail)
        · cases reads

/-- What is read as the end of an object is its bracket. -/
theorem lead_of_nextName_end {isFirst : Bool} {chars rest : List Char}
    (reads : nextName isFirst chars = .ok (none, rest)) : Lead [['\x7d']] chars rest := by
  unfold nextName at reads
  dsimp only at reads
  split at reads
  · cases reads
  · rename_i char tail next
    split at reads
    · rename_i bracket
      cases reads
      exact .mark (bracket ▸ next)
    · repeat' split at reads
      all_goals cases reads

/-- What is read up to the name of a member is a comma, or nothing before the first. -/
theorem lead_of_nextName {isFirst : Bool} {chars name rest : List Char}
    (reads : nextName isFirst chars = .ok (some name, rest)) :
    Lead (behindComma isFirst []) chars ('"' :: name) := by
  unfold nextName at reads
  dsimp only at reads
  split at reads
  · cases reads
  · rename_i char tail next
    split at reads
    · cases reads
    · split at reads
      · rename_i first
        split at reads
        · rename_i mark
          cases reads
          rw [first, ← mark]
          exact next ▸ Lead.skipSpace chars
        · cases reads
      · rename_i notFirst
        split at reads
        · rename_i comma
          split at reads
          · cases reads
          · rename_i char' tail' next'
            split at reads
            · rename_i mark
              cases reads
              rw [Bool.eq_false_iff.2 notFirst, ← mark]
              exact (Lead.mark (comma ▸ next)).trans (next' ▸ Lead.skipSpace tail)
            · cases reads
        · cases reads

/-- A name, a colon and a value that are read are a member. -/
theorem lead_member {isFirst : Bool} {chars name behind colon rest body : List Char}
    {value : List Token} (next : Lead (behindComma isFirst []) chars ('"' :: name))
    (split : name = body ++ '"' :: behind) (mark : readMark ':' behind = .ok colon)
    (isRead : Lead value colon rest) :
    Lead (behindComma isFirst (stringToken body :: [':'] :: value)) chars rest := by
  have string : Lead [stringToken body] ('"' :: name) behind := by
    rw [split]
    exact lead_string (skipSpace_append isBlank_nil rfl _)
  rw [behindComma_eq_append]
  exact next.trans (string.trans ((lead_of_readMark mark).trans isRead))

section Read

variable {fields : List (Field σ)} {shapes : List (FieldShape σ)}

/-- A reader that is found by a name is that of a field of the name. -/
theorem exists_of_find?_some (accept : List.Forall₂ Field.Accepts fields shapes)
    {letters : List Char} {reader : Field σ}
    (found : fields.find? (fun reader => reader.name.toList = letters) = some reader) :
    ∃ shape ∈ shapes, reader.Accepts shape ∧ shape.name.toList = letters := by
  induction accept with
  | nil => cases found
  | @cons first shape fields shapes here _ ih =>
      rw [List.find?_cons] at found
      split at found
      · rename_i named
        obtain rfl := Option.some.inj found
        exact ⟨shape, List.mem_cons_self, here, here.name ▸ of_decide_eq_true named⟩
      · obtain ⟨shape, listed, accepts, named⟩ := ih found
        exact ⟨shape, List.mem_cons_of_mem _ listed, accepts, named⟩

/-- Where no reader is found by a name, no field has the name. -/
theorem ne_of_find?_none (accept : List.Forall₂ Field.Accepts fields shapes)
    {letters : List Char}
    (absent : fields.find? (fun reader => reader.name.toList = letters) = none) :
    ∀ shape ∈ shapes, shape.name.toList ≠ letters := by
  induction accept with
  | nil => exact List.forall_mem_nil _
  | @cons first shape fields shapes here _ ih =>
      rw [List.find?_cons] at absent
      split at absent
      · cases absent
      · rename_i other
        exact List.forall_mem_cons.2 ⟨here.name ▸ of_decide_eq_false other, ih absent⟩

/-- What is read as the members of an object is members, none of them with a name that was read
before. -/
theorem isObject_of_readFields (accept : List.Forall₂ Field.Accepts fields shapes)
    {isFirst : Bool} {seen : List String} {record result : σ} {chars rest : List Char}
    (reads : readFields fields isFirst seen record chars = .ok (result, rest)) :
    ∃ members names, IsObject shapes members names record result ∧
      (∀ name ∈ names, name ∉ seen) ∧
        Lead (remainingTokens isFirst members ++ [['\x7d']]) chars rest := by
  fun_induction readFields fields isFirst seen record chars with
  | case1 => cases reads
  | case2 isFirst seen record chars behind next =>
      cases reads
      refine ⟨[], [], .nil, List.forall_mem_nil _, ?_⟩
      rw [remainingTokens_nil]
      exact lead_of_nextName_end next
  | case3 => cases reads
  | case4 => cases reads
  | case5 => cases reads
  | case6 => cases reads
  -- A field with a known name that was not read before.
  | case7 isFirst seen record chars name other next letters behind text reader found fresh colon
      mark change last run ih =>
      obtain ⟨members, names, isObject, apart, lead⟩ := ih reads
      obtain ⟨shape, listed, accepts, named⟩ := exists_of_find?_some accept found
      obtain ⟨body, split, spells⟩ := spells_of_readString text
      obtain ⟨value, isValue, lead'⟩ := accepts.decoder.isRead run
      rw [accepts.name] at fresh apart
      refine ⟨_, _, .known listed (named ▸ spells) isValue (fun twice =>
        apart _ twice List.mem_cons_self) isObject, ?_, ?_⟩
      · refine List.forall_mem_cons.2 ⟨fresh, ?_⟩
        intro name member before
        exact apart name member (List.mem_cons_of_mem _ before)
      · rw [remainingTokens_cons, List.append_assoc]
        exact (lead_member (lead_of_nextName next) split mark lead').trans lead
  | case8 => cases reads
  | case9 => cases reads
  -- A field with another name, whose value is skipped.
  | case10 isFirst seen record chars name other next letters behind text absent colon mark last
      skips ih =>
      obtain ⟨members, names, isObject, apart, lead⟩ := ih reads
      obtain ⟨body, split, spells⟩ := spells_of_readString text
      obtain ⟨value, isValue, lead'⟩ := isValue_of_skipValue skips
      refine ⟨_, names, .other spells (ne_of_find?_none accept absent) isValue isObject, apart, ?_⟩
      rw [remainingTokens_cons, List.append_assoc]
      exact (lead_member (lead_of_nextName next) split mark lead').trans lead

/-- Members are read as what they make of a record. -/
theorem IsObject.readFields_eq (accept : List.Forall₂ Field.Accepts fields shapes)
    (distinct : (shapes.map FieldShape.name).Nodup) {members : List (List Token)}
    {names : List String} {record result : σ} (isObject : IsObject shapes members names record result)
    {isFirst : Bool} {seen : List String} {more : List Token} {chars : List Char}
    (fresh : ∀ name ∈ names, name ∉ seen)
    (laid : LaysOut (remainingTokens isFirst members ++ ['\x7d'] :: more) chars) :
    ∃ rest, readFields fields isFirst seen record chars = .ok (result, rest) ∧
      LaysOut more rest := by
  have named : ∀ (reader : Field σ) (shape : FieldShape σ), reader.Accepts shape →
      reader.name = shape.name := fun _ _ accepts => accepts.name
  induction isObject generalizing isFirst seen chars with
  | nil =>
      rw [remainingTokens_nil, List.nil_append] at laid
      exact readFields_closing laid
  | @known shape body value change members names record result listed spells isValue once _ ih =>
      rw [remainingTokens_cons, List.append_assoc] at laid
      rw [List.forall_mem_cons] at fresh
      obtain ⟨reader, found, accepts⟩ := find?_named named accept distinct listed
      obtain ⟨rest, step, later⟩ := readFields_known found spells (accepts.name ▸ fresh.1)
        (accepts.decoder.reads isValue) laid
      -- The reader remembers the name, and no later member has it.
      have unread : ∀ name ∈ names, name ∉ reader.name :: seen := by
        intro name member before
        rcases List.mem_cons.1 before with rfl | before
        · exact once (accepts.name ▸ member)
        · exact fresh.2 name member before
      obtain ⟨last, run, final⟩ := ih unread later
      exact ⟨last, step.trans run, final⟩
  | @other body letters value members names record result spells unknown isValue _ ih =>
      rw [remainingTokens_cons, List.append_assoc] at laid
      have isDelimited : IsDelimited (remainingTokens false members ++ ['\x7d'] :: more) :=
        isDelimited_items .object members more
      obtain ⟨rest, step, later⟩ := readFields_other (find?_unnamed named accept unknown) spells
        isValue isDelimited laid
      obtain ⟨last, run, final⟩ := ih fresh later
      exact ⟨last, step.trans run, final⟩

/-- What is read as the items of an array is items. -/
theorem isSequence_of_readPositions (accept : List.Forall₂ Field.Accepts fields shapes)
    {isFirst : Bool} {record result : σ} {chars rest : List Char}
    (reads : readPositions fields isFirst record chars = .ok (result, rest)) :
    ∃ items, IsSequence shapes items record result ∧
      Lead (remainingTokens isFirst items ++ [[']']]) chars rest := by
  induction accept generalizing isFirst record chars with
  | nil =>
      obtain ⟨behind, mark, same⟩ := eq_ok_of_map reads
      cases same
      refine ⟨[], .nil, ?_⟩
      rw [remainingTokens_nil]
      exact lead_of_readMark mark
  | @cons reader shape fields shapes accepts _ ih =>
      rw [readPositions] at reads
      split at reads
      · cases reads
      · rename_i behind next
        cases reads
        refine ⟨[], .nil, ?_⟩
        rw [remainingTokens_nil]
        exact lead_of_nextItem_end next
      · rename_i item other next
        split at reads
        · cases reads
        · rename_i change behind run
          obtain ⟨items, isSequence, lead⟩ := ih reads
          obtain ⟨value, isValue, lead'⟩ := accepts.decoder.isRead run
          refine ⟨value :: items, .cons isValue isSequence, ?_⟩
          rw [remainingTokens_cons, behindComma_eq_append, List.append_assoc, List.append_assoc]
          exact (lead_of_nextItem next).trans (lead'.trans lead)

/-- Items are read as what they make of a record. -/
theorem IsSequence.readPositions_eq (accept : List.Forall₂ Field.Accepts fields shapes)
    {items : List (List Token)} {record result : σ}
    (isSequence : IsSequence shapes items record result) {isFirst : Bool} {more : List Token}
    {chars : List Char} (laid : LaysOut (remainingTokens isFirst items ++ [']'] :: more) chars) :
    ∃ rest, readPositions fields isFirst record chars = .ok (result, rest) ∧
      LaysOut more rest := by
  induction isSequence generalizing fields isFirst chars with
  | @nil shapes record =>
      rw [remainingTokens_nil, List.nil_append] at laid
      cases fields with
      | nil =>
          obtain ⟨rest, mark, later⟩ := laid.readMark_eq rfl
          refine ⟨rest, ?_, later⟩
          rw [readPositions, mark]
          rfl
      | cons reader fields =>
          obtain ⟨rest, next, later⟩ := nextItem_closing isFirst laid
          refine ⟨rest, ?_, later⟩
          rw [readPositions, next]
  | @cons shape shapes item items change record result isValue _ ih =>
      cases accept with
      | @cons reader _ fields _ accepts accept =>
          rw [remainingTokens_cons, List.append_assoc] at laid
          obtain ⟨inner, next, behind⟩ := nextItem_some (accepts.decoder.isStart isValue _) laid
          obtain ⟨rest, run, later⟩ := accepts.decoder.reads isValue _ _ behind
          obtain ⟨last, others, final⟩ := ih accept later
          refine ⟨last, ?_, final⟩
          rw [readPositions, next]
          dsimp only
          rw [run]
          exact others

/-- What is read as a record is one. -/
theorem isRecord_of_readRecord (accept : List.Forall₂ Field.Accepts fields shapes)
    {initial record : σ} {chars rest : List Char}
    (reads : readRecord fields initial chars = .ok (record, rest)) :
    ∃ tokens, IsRecord shapes initial tokens record ∧ Lead tokens chars rest := by
  unfold readRecord at reads
  split at reads
  · cases reads
  rename_i char tail next
  split at reads
  · rename_i bracket
    have opening : Lead [['\x7b']] chars tail := .mark (bracket ▸ next)
    obtain ⟨members, names, isObject, -, lead⟩ := isObject_of_readFields accept reads
    exact ⟨_, .object isObject, opening.trans lead⟩
  split at reads
  · rename_i bracket
    have opening : Lead [['[']] chars tail := .mark (bracket ▸ next)
    obtain ⟨items, isSequence, lead⟩ := isSequence_of_readPositions accept reads
    exact ⟨_, .array isSequence, opening.trans lead⟩
  · cases reads

/-- A record is read, with nothing but blanks left. -/
theorem IsRecord.readRecord_eq (accept : List.Forall₂ Field.Accepts fields shapes)
    (distinct : (shapes.map FieldShape.name).Nodup) {initial record : σ} {tokens : List Token}
    (isRecord : IsRecord shapes initial tokens record) {chars : List Char}
    (laid : LaysOut tokens chars) :
    ∃ rest, readRecord fields initial chars = .ok (record, rest) ∧ LaysOut [] rest := by
  cases isRecord with
  | @object members names record isObject =>
      obtain ⟨behind, bracket, laid⟩ := laid.skipSpace_eq rfl
      have inside : LaysOut (remainingTokens true members ++ [['\x7d']]) behind := laid
      obtain ⟨rest, read, later⟩ := isObject.readFields_eq accept distinct
        (fun _ _ => List.not_mem_nil) inside
      refine ⟨rest, ?_, later⟩
      rw [List.nil_append] at bracket
      rw [readRecord, bracket]
      exact read
  | @array items record isSequence =>
      obtain ⟨behind, bracket, laid⟩ := laid.skipSpace_eq rfl
      have inside : LaysOut (remainingTokens true items ++ [[']']]) behind := laid
      obtain ⟨rest, read, later⟩ := isSequence.readPositions_eq accept inside
      refine ⟨rest, ?_, later⟩
      rw [List.nil_append] at bracket
      rw [readRecord, bracket]
      exact read

/-- A text is read as a record exactly if it is a layout of the record. -/
theorem decodeRecord_eq_ok_iff (accept : List.Forall₂ Field.Accepts fields shapes)
    (distinct : (shapes.map FieldShape.name).Nodup) {initial record : σ} {text : String} :
    decodeRecord fields initial text = .ok record ↔
      ∃ tokens, IsRecord shapes initial tokens record ∧ LaysOut tokens text.toList := by
  constructor
  · intro decodes
    unfold decodeRecord at decodes
    split at decodes
    · cases decodes
    rename_i result rest reads
    split at decodes
    · rename_i blank
      cases decodes
      obtain ⟨tokens, isRecord, lead⟩ := isRecord_of_readRecord accept reads
      exact ⟨tokens, isRecord, lead.laysOut blank⟩
    · cases decodes
  · rintro ⟨tokens, isRecord, laid⟩
    obtain ⟨rest, reads, later⟩ := isRecord.readRecord_eq accept distinct laid
    rw [decodeRecord, reads]
    dsimp only
    rw [later.skipSpace_eq_nil]
    rfl

end Read

end WordPackage.Json
