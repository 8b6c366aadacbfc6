import WordPackage.Integrity
import WordPackage.Proofs.Archive.Deflate
import WordPackage.Proofs.Package

/-!
# Archives are read back from their bytes

What the bytes of an archive are opened as has the entries of the archive, under their names, in
their order and with their bytes. Numbers of 16 bits tell the length of a name and the number of
entries, numbers of 32 bits the sizes and offsets. The statements are about archives that these
suffice for. The greatest values are left out, since they would point to wide records.
-/

namespace WordPackage

namespace Archive

/-- Whether the fields of headers and of the end record suffice for an archive. -/
structure Fits (entries : List Entry) : Prop where
  names : ∀ entry ∈ entries, entry.name.utf8ByteSize < 0x10000
  count : entries.length < 0xFFFF
  room : (records entries 0).1.size < 0xFFFFFFFF

namespace Entry

/-- The header that is read for an entry whose local record has an offset. -/
def header (entry : Entry) (offset : Nat) : Header where
  name := entry.name
  isEncrypted := false
  method := entry.method
  checksum := checksum entry.data
  size := entry.data.size % 0x100000000
  keptSize := entry.payload.size
  offset := offset

variable {entry : Entry} {bytes : ByteArray} {offset place : Nat}

theorem method_eq (entry : Entry) : entry.method = 0 ∨ entry.method = 8 := by
  cases kept : entry.compression with
  | stored => exact .inl (by rw [method, kept])
  | deflated => exact .inr (by rw [method, kept])

theorem size_toUTF8 (name : String) : name.toUTF8.size = name.utf8ByteSize := by
  rw [String.toUTF8_eq_toByteArray, String.size_toByteArray]

theorem headerText_toUTF8 (name : String) : headerText true name.toUTF8 = name := by
  rw [headerText, if_pos rfl, Text.decodeLossy, Text.decodeReplacing, Text.decode_toUTF8]

theorem finish?_of_empty {state : FieldState} (empty : state.fields = .empty)
    (method : state.header.method ≠ 99) : state.finish? = some state.header := by
  have passed : (FieldReader.fields ByteArray.empty.size).run.run state = (.ok (), state) := rfl
  rw [FieldState.finish?, empty, passed]
  simp [method]

theorem size_directoryRecord (entry : Entry) (offset : Nat) :
    (entry.directoryRecord offset).size = 46 + entry.name.utf8ByteSize := by
  rw [directoryRecord, ByteArray.size_append, List.size_toByteArray, length_fieldBytes,
    size_toUTF8]
  simp [sharedFields, fieldsLength]

/-- The header of an entry is read from its record in the directory. -/
theorem readHeader?_directoryRecord (named : entry.name.utf8ByteSize < 0x10000)
    (kept : entry.payload.size < 0x100000000) (small : offset < 0x100000000)
    (stands : StandsAt bytes place (entry.directoryRecord offset).data.toList) :
    readHeader? bytes place
      = some (entry.header offset, place + (entry.directoryRecord offset).size) := by
  rw [size_directoryRecord]
  rw [directoryRecord] at stands
  obtain ⟨fields, name, room⟩ :=
    stands.record 46 (by simp [sharedFields, fieldsLength]) (by decide)
  rw [size_toUTF8] at room
  simp only [sharedFields, List.cons_append, List.nil_append, ReadsFields, Nat.add_assoc,
    Nat.reduceAdd, Nat.reducePow, and_true] at fields
  obtain ⟨signature, -, -, flags, method, -, -, sum, keptSize, size, nameLength, noFields,
    noComment, -, -, -, start⟩ := fields
  -- The fields are wide enough for what they tell, except for the size before compression, which
  -- nothing is read by.
  rw [Nat.mod_eq_of_lt named] at nameLength
  rw [Nat.mod_eq_of_lt kept] at keptSize
  rw [Nat.mod_eq_of_lt small] at start
  rw [Nat.mod_eq_of_lt (UInt32.toNat_lt _)] at sum
  obtain ⟨known, keyless⟩ : entry.method % 65536 = entry.method ∧ entry.method ≠ 99 := by
    obtain same | same := entry.method_eq <;> simp [same]
  have headed : hasSignature bytes 0x02014B50 place := hasSignature_iff.2 ⟨by omega, signature⟩
  have enough : hasBytes bytes place 46 := hasBytes_iff.2 (by omega)
  have inside : ¬ bytes.size < place + (46 + entry.name.utf8ByteSize) := by omega
  have text := name.extract
  rw [size_toUTF8, Nat.add_assoc] at text
  have flag : (2048 : Nat).testBit 11 = true := by decide
  have plain : (2048 : Nat).testBit 0 = false := by decide
  have noBytes : bytes.extract (place + (46 + entry.name.utf8ByteSize))
      (place + (46 + entry.name.utf8ByteSize)) = .empty :=
    ByteArray.extract_same
  rw [readHeader?, enough, headed]
  simp only [nameLength, noFields, noComment, flags, method, sum, keptSize, size, start, known,
    Nat.add_assoc, Nat.reduceMod, Nat.add_zero, inside, text, flag, plain, noBytes,
    headerText_toUTF8, Nat.toUInt32_eq, UInt32.ofNat_toNat]
  rw [finish?_of_empty rfl keyless]
  rfl

theorem size_localRecord (entry : Entry) :
    entry.localRecord.size = 30 + entry.name.utf8ByteSize + entry.payload.size := by
  rw [localRecord, ByteArray.size_append, ByteArray.size_append, List.size_toByteArray,
    length_fieldBytes, size_toUTF8]
  simp [sharedFields, fieldsLength]

/-- The bytes of an entry are read from its local record. -/
theorem read_localRecord (named : entry.name.utf8ByteSize < 0x10000)
    (stands : StandsAt bytes offset entry.localRecord.data.toList) :
    read bytes (entry.header offset) = .ok entry.data := by
  rw [localRecord, ByteArray.append_assoc] at stands
  obtain ⟨fields, behind, room⟩ :=
    stands.record 30 (by simp [sharedFields, fieldsLength]) (by decide)
  have payload := behind.parts.2
  rw [size_toUTF8] at payload
  simp only [sharedFields, ReadsFields, Nat.add_assoc, Nat.reduceAdd, Nat.reducePow,
    and_true] at fields
  obtain ⟨signature, -, -, -, -, -, -, -, -, nameLength, noFields⟩ := fields
  rw [Nat.mod_eq_of_lt named] at nameLength
  have headed : hasSignature bytes 0x04034B50 offset := hasSignature_iff.2 ⟨by omega, signature⟩
  have enough : hasBytes bytes offset 30 := hasBytes_iff.2 (by omega)
  have kept : keptBytes bytes (entry.header offset) = entry.payload := by
    simp only [keptBytes, header, nameLength, noFields, Nat.reduceMod, Nat.add_zero]
    exact payload.extract
  rw [read, kept]
  simp only [header, enough, headed]
  cases how : entry.compression with
  | stored => simp [method, Entry.payload, how]
  | deflated => simp [method, Entry.payload, how, expand_deflate]

end Entry

/-- The headers that are read for entries whose first local record has an offset. -/
def headersFrom : List Entry → Nat → List Header
  | [], _ => []
  | entry :: later, offset =>
      entry.header offset :: headersFrom later (offset + entry.localRecord.size)

variable {entries : List Entry} {bytes : ByteArray} {offset place : Nat}

/-- Every entry is read from the local records as it was written. -/
theorem read_headersFrom (named : ∀ entry ∈ entries, entry.name.utf8ByteSize < 0x10000)
    (stands : StandsAt bytes offset (records entries offset).1.data.toList) :
    (headersFrom entries offset).map
        (fun header => (header.name, (Content.archived bytes header).read))
      = entries.map fun entry => (entry.name, .ok entry.data) := by
  induction entries generalizing offset with
  | nil => rfl
  | cons entry later ih =>
      rw [records] at stands
      obtain ⟨first, behind⟩ := stands.parts
      rw [List.forall_mem_cons] at named
      rw [headersFrom, List.map_cons, List.map_cons, ih named.2 behind, Content.read,
        Entry.read_localRecord named.1 first]
      rfl

/-- The headers of entries are read from the directory. -/
theorem headersFrom?_records {directory : Directory} (unshifted : directory.shift = 0)
    (named : ∀ entry ∈ entries, entry.name.utf8ByteSize < 0x10000)
    (small : directory.start < 0x100000000)
    (before : offset + (records entries offset).1.size ≤ directory.start)
    (stands : StandsAt bytes place (records entries offset).2.data.toList) :
    directory.headersFrom? bytes entries.length place = some (headersFrom entries offset) := by
  induction entries generalizing offset place with
  | nil => rfl
  | cons entry later ih =>
      rw [records] at stands
      rw [records, ByteArray.size_append] at before
      obtain ⟨first, behind⟩ := stands.parts
      rw [List.forall_mem_cons] at named
      have size := entry.size_localRecord
      have head := Entry.readHeader?_directoryRecord named.1 (by omega) (by omega) first
      have inside : (entry.header offset).offset < directory.start := by
        show offset < directory.start
        omega
      rw [List.length_cons, Directory.headersFrom?, head]
      simp only [Option.bind_eq_bind, Option.bind_some, unshifted, Nat.add_zero]
      rw [if_pos inside, ih named.2 (by omega) behind]
      rfl

/-- The directory of some entries has bytes, and starts with the signature of a header. -/
theorem hasSignature_records (filled : entries ≠ [])
    (stands : StandsAt bytes place (records entries offset).2.data.toList) :
    0 < (records entries offset).2.size ∧ hasSignature bytes 0x02014B50 place := by
  cases entries with
  | nil => exact absurd rfl filled
  | cons entry later =>
      have size := entry.size_directoryRecord offset
      rw [records] at stands
      obtain ⟨first, -⟩ := stands.parts
      rw [Entry.directoryRecord] at first
      obtain ⟨⟨signature, -⟩, -, room⟩ :=
        first.record 46 (by simp [Entry.sharedFields, fieldsLength]) (by decide)
      rw [records, ByteArray.size_append]
      exact ⟨by omega, hasSignature_iff.2 ⟨by omega, signature⟩⟩

/-- The fields of an end record, given the number of entries and the length and offset of the
directory. -/
def endFields (count length start : Nat) : List (Nat × Nat) :=
  [(4, 0x06054B50), (2, 0), (2, 0), (2, count), (2, count), (4, length), (4, start), (2, 0)]

/-- The fields of an end record lead to the directory that stands before it. -/
theorem directoryAt_of_readsFields {count length start : Nat} (few : count < 0xFFFF)
    (small : start < 0xFFFFFFFF) (fields : ReadsFields bytes place (endFields count length start))
    (empty : count = 0 → place = start)
    (headed : count ≠ 0 → start < place ∧ hasSignature bytes 0x02014B50 start) :
    directoryAt bytes place = .ok { start, shift := 0, count, isSound := true } := by
  simp only [endFields, ReadsFields, Nat.add_assoc, Nat.reduceAdd, Nat.reducePow,
    and_true] at fields
  obtain ⟨-, disk, disk', total, total', -, recorded, -⟩ := fields
  rw [Nat.mod_eq_of_lt (by omega)] at total total' recorded
  have narrow : ¬ (count = 0xFFFF ∨ start = 0xFFFFFFFF) := by omega
  rw [directoryAt, total', recorded]
  simp only [← Bool.decide_or, decide_eq_true_eq, narrow, if_false]
  rw [narrowDirectory, total', total, recorded, disk, disk']
  by_cases none : count = 0
  · rw [if_pos none, empty none, Nat.max_self]
    simp only [Nat.sub_self]
    rfl
  · obtain ⟨before, first⟩ := headed none
    have found : findSignature bytes 0x02014B50 (place - start) start = some start := by
      obtain ⟨places, more⟩ := Nat.exists_eq_add_one_of_ne_zero (Nat.sub_ne_zero_of_lt before)
      rw [more, findSignature, if_pos first]
    rw [if_neg none, if_neg (Nat.not_le.2 before), found]
    simp only [Nat.sub_self]
    rfl

/-- Where the bytes end with an end record, it is looked for no further ahead. -/
theorem headersBefore_of_cut (size : bytes.size = place + 22) (met : Option Fault)
    (beyond : Nat) : ∃ met', headersBefore bytes met (place + 1 + beyond)
      = headersBefore bytes met' (place + 1) := by
  induction beyond generalizing met with
  | zero => exact ⟨met, rfl⟩
  | succ beyond ih =>
      have short : ¬ hasBytes bytes (place + 1 + beyond) 22 := by
        rw [hasBytes_iff]
        omega
      have cut : cutEnd? bytes (place + 1 + beyond) = some .unreadable := by
        simp [cutEnd?, short]
      rw [← Nat.add_assoc, headersBefore, cut]
      split
      · exact ih met
      · exact ih _

theorem size_toBytes (entries : List Entry) :
    (toBytes entries).size = (records entries 0).1.size + (records entries 0).2.size + 22 := by
  rw [toBytes, ByteArray.size_append, ByteArray.size_append, List.size_toByteArray,
    length_fieldBytes]
  rfl

/-- The local records, the directory and the end record follow one another. -/
theorem standsAt_toBytes (entries : List Entry) :
    StandsAt (toBytes entries) 0 (records entries 0).1.data.toList ∧
      StandsAt (toBytes entries) (records entries 0).1.size (records entries 0).2.data.toList ∧
      ReadsFields (toBytes entries) ((records entries 0).1.size + (records entries 0).2.size)
        (endFields entries.length (records entries 0).2.size (records entries 0).1.size) := by
  have whole : StandsAt (toBytes entries) 0 (toBytes entries).data.toList := List.prefix_rfl
  nth_rewrite 2 [toBytes] at whole
  obtain ⟨front, last⟩ := whole.parts
  obtain ⟨locals, directory⟩ := front.parts
  rw [Nat.zero_add] at directory
  rw [ByteArray.size_append, Nat.zero_add, List.data_toByteArray] at last
  exact ⟨locals, directory, last.readsFields⟩

/-- The headers of an archive are read from its bytes. -/
theorem headers_toBytes (fits : Fits entries) :
    headers (toBytes entries) = .ok (headersFrom entries 0) := by
  obtain ⟨-, directory, fields⟩ := standsAt_toBytes entries
  have size := size_toBytes entries
  have reads : Directory.headersFrom? ⟨(records entries 0).1.size, 0, entries.length, true⟩
      (toBytes entries) entries.length (records entries 0).1.size = some (headersFrom entries 0) :=
    headersFrom?_records rfl fits.names (Nat.lt_trans fits.room (by decide))
      (Nat.le_of_eq (Nat.zero_add _)) directory
  have empty : entries.length = 0 →
      (records entries 0).1.size + (records entries 0).2.size = (records entries 0).1.size := by
    intro none
    rw [List.eq_nil_of_length_eq_zero none]
    rfl
  have some : entries.length ≠ 0 →
      (records entries 0).1.size < (records entries 0).1.size + (records entries 0).2.size ∧
        hasSignature (toBytes entries) 0x02014B50 (records entries 0).1.size := by
    intro some
    obtain ⟨positive, headed⟩ :=
      hasSignature_records (List.length_pos_iff.1 (Nat.pos_of_ne_zero some)) directory
    exact ⟨Nat.lt_add_of_pos_right positive, headed⟩
  have found := directoryAt_of_readsFields fits.count fits.room fields empty some
  generalize (records entries 0).1.size + (records entries 0).2.size = place
    at fields size found
  obtain ⟨signature, -, -, -, -, -, -, noComment, -⟩ := fields
  have headed : hasSignature (toBytes entries) 0x06054B50 place :=
    hasSignature_iff.2 ⟨by omega, signature⟩
  have uncut : cutEnd? (toBytes entries) place = none := by
    have enough : hasBytes (toBytes entries) place 22 := hasBytes_iff.2 (by omega)
    simp [cutEnd?, noComment, enough]
  -- Within the end record there is no room for another, so the search comes to its start.
  obtain ⟨met, last⟩ := headersBefore_of_cut size none 21
  rw [headers, size]
  rw [Nat.add_assoc] at last
  rw [last, headersBefore, headed, uncut, found]
  simp [Directory.headers?, reads]

end Archive

namespace Package

/-- What is read for each name. -/
def readings (package : Package) : Assignments String (Except Failure ByteArray) :=
  package.entries.map fun pair => (pair.1, pair.2.read)

theorem readBytes_eq_get?_readings (package : Package) (path : String) :
    package.readBytes path
      = (Assignments.get? path package.readings).getD (.error (.missingPart path)) := by
  have changed : Assignments.get? path package.readings
      = (Assignments.get? path package.entries).map Content.read :=
    Assignments.get?_map Function.injective_id Content.read path package.entries
  rw [changed, readBytes]
  cases Assignments.get? path package.entries with
  | none => rfl
  | some content => rfl

variable {left right : Package} (same : left.readings = right.readings)

include same

theorem names_eq_of_readings_eq : left.names = right.names := by
  have keys := congrArg (List.map Prod.fst) same
  rw [readings, readings, List.map_map, List.map_map] at keys
  exact keys

/-- Packages that read alike have the same issues. -/
theorem issues_eq_of_readings_eq : left.issues = right.issues := by
  have names := names_eq_of_readings_eq same
  have texts (path : String) : left.readText path = right.readText path := by
    rw [readText, readText, readBytes_eq_get?_readings, same, ← readBytes_eq_get?_readings]
  have listed (path : String) : left.relationships path = right.relationships path := by
    rw [relationships, relationships, texts]
  have parts (listing : List String) :
      left.issuesOfParts listing = right.issuesOfParts listing := by
    induction listing with
    | nil => rfl
    | cons part later ih => rw [issuesOfParts, issuesOfParts, listed, ih, names]
  rw [issues, issues, relationshipParts, relationshipParts, parts, manifest, manifest, texts,
    names]

omit same

variable {entries : List Archive.Entry}

/-- What the bytes of an archive are opened as reads like the archive itself. -/
theorem ofBytes_toBytes (fits : Archive.Fits entries) :
    ∃ package, ofBytes (Archive.toBytes entries) = .ok package ∧
      package.readings = (ofEntries entries).readings := by
  refine ⟨_, by rw [ofBytes, Archive.headers_toBytes fits], ?_⟩
  have reads := Archive.read_headersFrom fits.names (Archive.standsAt_toBytes entries).1
  rw [readings, readings, ofEntries, ← Assignments.ofList_map, ← Assignments.ofList_map,
    List.map_map, List.map_map]
  exact congrArg Assignments.ofList reads

/-- An archive has the same issues whether it is put together in memory or opened from its
bytes. -/
theorem issues_ofBytes_toBytes (fits : Archive.Fits entries) :
    (ofBytes (Archive.toBytes entries) >>= issues) = (ofEntries entries).issues := by
  obtain ⟨package, opens, same⟩ := ofBytes_toBytes fits
  rw [opens]
  exact issues_eq_of_readings_eq same

end Package

end WordPackage
