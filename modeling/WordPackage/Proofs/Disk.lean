import WordPackage.Disk
import WordPackage.Proofs.Metadata.Record
import WordPackage.Proofs.Settings
import WordPackage.Proofs.Storage.Tree
import WordPackage.Text.Encoding

/-!
# Records and settings that are kept

What is kept as JSON is read back: a record from its compact text and from every variant of it,
settings from the file that they were saved to.
-/

namespace WordPackage

open Storage

theorem Settings.writeFile_of_save {settings : Settings} {path : String} {tree later : Tree}
    (saves : (ExceptT.run (settings.save path)).run tree = (.ok (), later)) :
    ∃ before : Tree, before.writeFile ⟨path⟩ settings.toJson.indented.toUTF8 = .ok later := by
  unfold save at saves
  split at saves
  · obtain ⟨_, before, -, writes⟩ := Action.run_bind_eq_ok saves
    exact ⟨before, Action.run_change_eq_ok writes⟩
  · exact ⟨tree, Action.run_change_eq_ok saves⟩

theorem Settings.ofJson_indented (settings : Settings) :
    Settings.ofJson settings.toJson.indented = .ok settings := by
  apply settings.standsFor.decodeRecord_object
  rw [Json.Value.indented, String.toList_ofList]
  exact Json.Value.laysOut_indentedChars 0 settings.toJson

/-- A file is loaded as what its text is read as, or else as the default settings. It is a fault if
its bytes are no text. -/
theorem Settings.load_file {path : String} {tree : Tree} {bytes : ByteArray}
    (found : tree.find ⟨path⟩ = .ok (.file bytes)) :
    Settings.load tree path = (String.fromUTF8? bytes).elim (.error (.storage .notText))
      fun text => .ok ((Settings.ofJson text).toOption.getD {}) := by
  have stands : tree.hasNode ⟨path⟩ = true := by
    rw [Tree.hasNode, found]
  have read : tree.fileBytes ⟨path⟩ = .ok bytes := by
    rw [Tree.fileBytes, found]
    rfl
  rw [load, if_pos stands, read]
  dsimp only
  cases String.fromUTF8? bytes with
  | none => rfl
  | some text =>
      dsimp only [Option.elim]
      cases Settings.ofJson text <;> rfl

theorem Settings.load_eq_ok {settings : Settings} {path : String} {tree : Tree}
    (found : tree.find ⟨path⟩ = .ok (.file settings.toJson.indented.toUTF8)) :
    Settings.load tree path = .ok settings := by
  rw [load_file found, Text.fromUTF8?_toUTF8]
  dsimp only [Option.elim]
  rw [settings.ofJson_indented]
  rfl

/-- What is kept as JSON is read back. The compact text of a record is read as the record, and so is
every text with its fields in any order, any blanks, fields left out that hold their default values
and fields added that records do not have. Settings that were saved are loaded from where they were
saved to. -/
theorem kept_json_reads_back :
    (∀ record : MetadataRecord,
      MetadataRecord.ofJson record.toJson.compact = .ok record ∧
      ∀ (members : List Json.Member) (text : String),
        Json.IsVariant record.toJson.fields ({} : MetadataRecord).toJson.fields members →
          Json.LaysOut (Json.objectTokens members) text.toList →
            MetadataRecord.ofJson text = .ok record) ∧
    ∀ (settings : Settings) (path : String) (tree later : Tree),
      (ExceptT.run (settings.save path)).run tree = (.ok (), later) →
        Settings.load later path = .ok settings := by
  constructor
  · intro record
    constructor
    · apply record.standsFor.decodeRecord_object
      rw [Json.Value.compact, String.toList_ofList]
      exact Json.Value.laysOut_compactChars record.toJson
    · intro members text isVariant laid
      exact record.standsFor.decodeRecord_eq isVariant laid
  · intro settings path tree later saves
    obtain ⟨before, writes⟩ := Settings.writeFile_of_save saves
    exact Settings.load_eq_ok (Tree.find_writeFile writes)

/-- A title and comments in reverse order, behind a field that records do not have. -/
def assortedMembers : List Json.Member := [
  .other "x\\u0021".toList (Json.enclosedTokens '[' ']' [["1.5e3".toList],
    Json.enclosedTokens '\x7b' '\x7d' [[Json.stringToken "y".toList, [':'], "null".toList]]]),
  .written ("comments", .text ""),
  .written ("title", .text "a\"b")]

/-- The field that records do not have is an array with a number and an object. -/
theorem isOther_assorted : Json.IsOther
    (({ title := "a\"b", comments := some "" } : MetadataRecord).toJson.fields.map Prod.fst)
    "x\\u0021".toList
    (Json.enclosedTokens '[' ']' [["1.5e3".toList], Json.enclosedTokens '\x7b' '\x7d'
      [[Json.stringToken "y".toList, [':'], "null".toList]]]) where
  spells := by
    have mark : Json.codeUnit? '0' '0' '2' '1' = some 0x21 := by decide
    exact ⟨"x!".toList, .plain (by decide) (.unicode mark (.inl (by decide)) .nil), by decide⟩
  isValue := by
    have integer : Json.IsInteger ['1'] := .inr ⟨by decide, by decide⟩
    have fraction : Json.IsFraction ['.', '5'] := .inr ⟨['5'], by decide, rfl⟩
    have exponent : Json.IsExponent ['e', '3'] :=
      .inr ⟨'e', [], ['3'], .inl rfl, .inl rfl, by decide, rfl⟩
    have number : Json.IsNumber "1.5e3".toList := .intro (.inl rfl) integer fraction exponent
    have body : Json.IsBody "y".toList := .plain (by decide) .nil
    have object := @Json.IsValue.container .object [([_, [':']], ["null".toList])]
      (List.forall_mem_singleton.2 (.object body))
      (List.forall_mem_singleton.2 (.scalar (.word (by decide))))
    exact @Json.IsValue.container .list [([], ["1.5e3".toList]), ([], _)]
      (List.forall_mem_cons.2 ⟨.list, List.forall_mem_singleton.2 .list⟩)
      (List.forall_mem_cons.2 ⟨.scalar (.number number), List.forall_mem_singleton.2 object⟩)

/-- The other fields of the record hold their default values. -/
theorem isVariant_assorted : Json.IsVariant
    ({ title := "a\"b", comments := some "" } : MetadataRecord).toJson.fields
    ({} : MetadataRecord).toJson.fields assortedMembers where
  kept := ⟨[("title", .text "a\"b"), ("comments", .text "")], .swap _ _ _,
    .cons_cons _ (.cons _ (.cons _ (.cons_cons _ (.cons _ (.cons _ .slnil)))))⟩
  leftOut := by
    simp [assortedMembers, Json.writtenFields, Json.Member.field?, MetadataRecord.toJson,
      Json.Value.fields, Json.Value.ofOption]
  others := by
    intro body value member
    simp only [assortedMembers, List.mem_cons, Json.Member.other.injEq, reduceCtorEq,
      List.not_mem_nil, or_false] at member
    obtain ⟨rfl, rfl⟩ := member
    exact isOther_assorted

/-- A record is read from an assorted text, and settings are loaded from where they were saved. -/
theorem kept_json_reads_back_assorted :
    MetadataRecord.ofJson
        "\x7b \"x\\u0021\" : [1.5e3, \x7b\"y\":null\x7d],\n\"comments\":\"\",\"title\":\"a\\\"b\"\x7d"
      = .ok { title := "a\"b", comments := some "" } ∧
    ∃ later, (ExceptT.run (({ prettyPrint := true } : Settings).save "kept.json")).run {}
        = (.ok (), later) ∧
      Settings.load later "kept.json" = .ok { prettyPrint := true } := by
  have laid := @Json.LaysOut.flatMap
    [([], ['\x7b']), ([' '], "\"x\\u0021\"".toList), ([' '], [':']), ([' '], ['[']),
      ([], "1.5e3".toList), ([], [',']), ([' '], ['\x7b']), ([], "\"y\"".toList), ([], [':']),
      ([], "null".toList), ([], ['\x7d']), ([], [']']), ([], [',']),
      (['\n'], "\"comments\"".toList), ([], [':']), ([], "\"\"".toList), ([], [',']),
      ([], "\"title\"".toList), ([], [':']), ([], "\"a\\\"b\"".toList), ([], ['\x7d'])] []
    (List.forall_iff_forall_mem.1 (by decide)) (by decide)
  constructor
  · exact (kept_json_reads_back.1 _).2 assortedMembers _ isVariant_assorted laid
  · exact ⟨_, rfl, kept_json_reads_back.2 _ _ {} _ rfl⟩

end WordPackage
