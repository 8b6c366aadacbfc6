import WordPackage.Proofs.Disk
import WordPackage.Proofs.Json.RecordText

/-!
# Settings files

What the bytes of a settings file mean. A text may hold settings, with the fields that it names and
the default values of the others. Bytes that are no such text, cut off, out of shape or not a text
at all, mean the default settings. A file whose bytes are a text is loaded as what it means; a file
with other bytes is a fault of the storage.
-/

namespace WordPackage.Settings

open Json Storage

/-- The fields of settings with their values, in the order that arrays use. -/
def shapes : List (FieldShape Settings) := [
  ⟨"application_name", Shape.IsText.Mapped fun applicationName settings =>
    { settings with applicationName }⟩,
  ⟨"application_version", Shape.IsText.Mapped fun applicationVersion settings =>
    { settings with applicationVersion }⟩,
  ⟨"last_modified_by", Shape.IsText.Mapped fun lastModifiedBy settings =>
    { settings with lastModifiedBy }⟩,
  ⟨"pretty_print", Shape.IsFlag.Mapped fun prettyPrint settings =>
    { settings with prettyPrint }⟩,
  ⟨"xml_compression",
    (Shape.IsChoice [("stored", .stored), ("deflated", .deflated)]).Mapped
      fun xmlCompression settings => { settings with xmlCompression }⟩,
  ⟨"media_compression",
    (Shape.IsChoice [("stored", .stored), ("deflated", .deflated)]).Mapped
      fun mediaCompression settings => { settings with mediaCompression }⟩]

theorem accept : List.Forall₂ Field.Accepts fields shapes :=
  .cons ⟨rfl, Decoder.accepts_text.map _⟩ <|
    .cons ⟨rfl, Decoder.accepts_text.map _⟩ <|
    .cons ⟨rfl, Decoder.accepts_text.map _⟩ <|
    .cons ⟨rfl, Decoder.accepts_flag.map _⟩ <|
    .cons ⟨rfl, (Decoder.accepts_choice _).map _⟩ <|
    .cons ⟨rfl, (Decoder.accepts_choice _).map _⟩ .nil

/-- Whether a text holds settings: it is a layout of them, with default values where it says
nothing. -/
def IsHeldIn (settings : Settings) (text : String) : Prop :=
  ∃ tokens, IsRecord shapes {} tokens settings ∧ LaysOut tokens text.toList

theorem ofJson_eq_ok_iff {settings : Settings} {text : String} :
    ofJson text = .ok settings ↔ settings.IsHeldIn text :=
  decodeRecord_eq_ok_iff accept (by decide)

/-- Whether bytes mean settings: their text holds them, or these are the default ones and the bytes
have no text that holds any. -/
inductive IsMeantBy : Settings → ByteArray → Prop where
  | held {settings : Settings} {text : String} (isHeld : settings.IsHeldIn text) :
      IsMeantBy settings text.toUTF8
  | default {bytes : ByteArray}
      (none : ∀ (text : String) (settings : Settings), bytes = text.toUTF8 →
        ¬ settings.IsHeldIn text) :
      IsMeantBy {} bytes

/-- The bytes of a text mean what the text is read as, or else the default settings. -/
theorem isMeantBy_toUTF8_iff {settings : Settings} {text : String} :
    settings.IsMeantBy text.toUTF8 ↔ settings = (ofJson text).toOption.getD {} := by
  constructor
  · intro isMeant
    generalize same : text.toUTF8 = bytes at isMeant
    cases isMeant with
    | held isHeld =>
        cases String.toByteArray_inj.1 same
        rw [ofJson_eq_ok_iff.2 isHeld]
        rfl
    | default none =>
        cases read : ofJson text with
        | ok found => exact absurd (ofJson_eq_ok_iff.1 read) (none text found same.symm)
        | error fault => rfl
  · rintro rfl
    cases read : ofJson text with
    | ok found => exact .held (ofJson_eq_ok_iff.1 read)
    | error fault =>
        refine .default fun other settings same isHeld => ?_
        cases String.toByteArray_inj.1 same
        rw [ofJson_eq_ok_iff.2 isHeld] at read
        cases read

/-- A file whose bytes are no text is a fault. -/
theorem load_notText {tree : Tree} {path : String} {bytes : ByteArray}
    (found : tree.find ⟨path⟩ = .ok (.file bytes))
    (notText : ¬ ∃ text : String, bytes = text.toUTF8) :
    load tree path = .error (.storage .notText) := by
  rw [load_file found]
  cases decodes : String.fromUTF8? bytes with
  | none => rfl
  | some text =>
      have isText : Text.decode bytes = .ok text := by
        rw [Text.decode, decodes]
      exact absurd ⟨text, Text.decode_eq_ok_iff.1 isText⟩ notText

/-- A file is loaded as what its bytes mean exactly if they are a text: the settings that the text
holds, and the default ones if it holds none. Bytes that are no text are a fault. -/
theorem load_isMeantBy_iff {tree : Tree} {path : String} {bytes : ByteArray}
    (found : tree.find ⟨path⟩ = .ok (.file bytes)) :
    ((∃ settings, load tree path = .ok settings ∧
        ∀ other : Settings, other.IsMeantBy bytes ↔ other = settings) ↔
      ∃ text : String, bytes = text.toUTF8) ∧
    (load tree path = .error (.storage .notText) ↔ ¬ ∃ text : String, bytes = text.toUTF8) := by
  by_cases isText : ∃ text : String, bytes = text.toUTF8
  · obtain ⟨text, rfl⟩ := isText
    rw [load_file found, Text.fromUTF8?_toUTF8]
    exact ⟨iff_of_true ⟨_, rfl, fun _ => isMeantBy_toUTF8_iff⟩ ⟨text, rfl⟩,
      iff_of_false nofun (not_not_intro ⟨text, rfl⟩)⟩
  · rw [load_notText found isText]
    exact ⟨iff_of_false (by rintro ⟨_, ⟨⟩, _⟩) isText, iff_of_true rfl isText⟩

/-- The last editor, as an escape and behind a field that settings do not have. -/
def partialText : String :=
  "\x7b \"x\" : [1],\n\"last_modified_by\":\"\\u0021\"\x7d"

/-- The text holds the last editor, and the default values of the other fields. -/
theorem isHeldIn_partialText : IsHeldIn { lastModifiedBy := "!" } partialText := by
  have laid := @LaysOut.flatMap
    [([], ['\x7b']), ([' '], "\"x\"".toList), ([' '], [':']), ([' '], ['[']), ([], ['1']),
      ([], [']']), ([], [',']), (['\n'], "\"last_modified_by\"".toList), ([], [':']),
      ([], "\"\\u0021\"".toList), ([], ['\x7d'])] []
    (List.forall_iff_forall_mem.1 (by decide)) (by decide)
  have integer : IsInteger ['1'] := .inr ⟨by decide, by decide⟩
  have number : IsNumber ['1'] := .intro (.inl rfl) integer (.inl rfl) (.inl rfl)
  have array : IsValue (enclosedTokens '[' ']' [[['1']]]) :=
    @IsValue.container .list [([], [['1']])] (List.forall_mem_singleton.2 .list)
      (List.forall_mem_singleton.2 (.scalar (.number number)))
  have mark : codeUnit? '0' '0' '2' '1' = some 0x21 := by decide
  have editor : Spells "\\u0021".toList ['!'] := .unicode mark (.inl (by decide)) .nil
  have name : Spells "last_modified_by".toList "last_modified_by".toList :=
    spells_escaped "last_modified_by".toList
  have known : IsObject shapes
      [[stringToken "last_modified_by".toList, [':'], stringToken "\\u0021".toList]]
      ["last_modified_by"] {} { lastModifiedBy := "!" } :=
    .known (.tail _ (.tail _ (.head _))) name (.intro (.intro editor)) List.not_mem_nil .nil
  exact ⟨_, .object (.other (.plain (by decide) .nil) (by decide) array known), laid⟩

/-- A tree with one file. -/
def treeWith (bytes : ByteArray) : Tree where
  nodes := [(["c.json"], .file bytes)]

theorem find_treeWith (bytes : ByteArray) :
    (treeWith bytes).find ⟨"c.json"⟩ = .ok (.file bytes) := rfl

/-- The settings of such a file are loaded. -/
theorem load_isMeantBy_partialText :
    (treeWith partialText.toUTF8).find ⟨"c.json"⟩ = .ok (.file partialText.toUTF8) ∧
      IsMeantBy { lastModifiedBy := "!" } partialText.toUTF8 ∧
      load (treeWith partialText.toUTF8) "c.json" = .ok { lastModifiedBy := "!" } := by
  have found := find_treeWith partialText.toUTF8
  have isMeant := IsMeantBy.held isHeldIn_partialText
  obtain ⟨settings, loads, only⟩ := (load_isMeantBy_iff found).1.2 ⟨partialText, rfl⟩
  have same := (only _).1 isMeant
  exact ⟨found, isMeant, same ▸ loads⟩

/-- A brace, a byte that no text has and a brace. -/
def tornBytes : ByteArray := ⟨#[0x7b, 0xff, 0x7d]⟩

/-- A file with a byte that no text has means the default settings, and no settings are loaded. -/
theorem load_torn :
    (treeWith tornBytes).find ⟨"c.json"⟩ = .ok (.file tornBytes) ∧ IsMeantBy {} tornBytes ∧
      load (treeWith tornBytes) "c.json" = .error (.storage .notText) ∧
      ¬ ∃ settings, load (treeWith tornBytes) "c.json" = .ok settings := by
  have notText : ¬ ∃ text : String, tornBytes = text.toUTF8 := by
    rintro ⟨text, same⟩
    have decodes := Text.decode_eq_ok_iff.2 same
    have fails : (Text.decode tornBytes).toOption = none := by decide +kernel
    rw [decodes] at fails
    cases fails
  have refused := load_notText (find_treeWith tornBytes) notText
  refine ⟨find_treeWith tornBytes, .default fun text _ same => absurd ⟨text, same⟩ notText,
    refused, ?_⟩
  rintro ⟨settings, loads⟩
  rw [refused] at loads
  cases loads

end WordPackage.Settings
