import WordPackage.Package
import WordPackage.Proofs.Assignments

/-!
# Reading packages

What is read from an archive with distinct names is what stands there under the name.
A text, a relationship part or a manifest is read exactly where the bytes encode a
text that parses.
-/

namespace WordPackage

/-- A sequence of two readings gives something when the first gives something that the second
goes on from. -/
theorem bind_eq_ok_iff {α β : Type} {first : Except Failure α} {next : α → Except Failure β}
    {value : β} :
    (first >>= next) = .ok value ↔ ∃ between, first = .ok between ∧ next between = .ok value := by
  cases first with
  | error failure => simp [bind, Except.bind]
  | ok between => simp [bind, Except.bind]

namespace Package

section Archives

variable {entries : List Archive.Entry}

theorem entries_ofEntries (distinct : (entries.map Archive.Entry.name).Nodup) :
    (ofEntries entries).entries = entries.map fun entry => (entry.name, .plain entry.data) := by
  refine Assignments.ofList_of_nodup ?_
  rw [List.map_map]
  exact distinct

theorem names_ofEntries (distinct : (entries.map Archive.Entry.name).Nodup) :
    (ofEntries entries).names = entries.map Archive.Entry.name := by
  rw [names, entries_ofEntries distinct, Assignments.keys, List.map_map]
  rfl

/-- An entry is read as it was written. -/
theorem readBytes_ofEntries (distinct : (entries.map Archive.Entry.name).Nodup)
    {entry : Archive.Entry} (member : entry ∈ entries) :
    (ofEntries entries).readBytes entry.name = .ok entry.data := by
  have keys : (Assignments.keys (ofEntries entries).entries).Nodup := by
    rw [← names, names_ofEntries distinct]
    exact distinct
  have held : (entry.name, Content.plain entry.data) ∈ (ofEntries entries).entries := by
    rw [entries_ofEntries distinct]
    exact List.mem_map_of_mem member
  rw [readBytes, Assignments.get?_of_mem keys held]
  rfl

/-- Bytes are read exactly where an entry holds them under the name. -/
theorem readBytes_ofEntries_iff (distinct : (entries.map Archive.Entry.name).Nodup)
    {path : String} {data : ByteArray} :
    (ofEntries entries).readBytes path = .ok data
      ↔ ∃ entry ∈ entries, entry.name = path ∧ entry.data = data := by
  constructor
  · intro reads
    rw [readBytes] at reads
    split at reads
    · cases reads
    · rename_i content found
      have held := Assignments.mem_of_get? found
      rw [entries_ofEntries distinct] at held
      obtain ⟨entry, member, same⟩ := List.mem_map.1 held
      obtain ⟨rfl, rfl⟩ := Prod.mk.inj same
      exact ⟨entry, member, rfl, Except.ok.inj reads⟩
  · rintro ⟨entry, member, rfl, rfl⟩
    exact readBytes_ofEntries distinct member

end Archives

variable {package : Package} {path text : String}

/-- An entry is read as a text exactly when its bytes encode the text. -/
theorem readText_eq_ok_iff :
    package.readText path = .ok text ↔ package.readBytes path = .ok text.toUTF8 := by
  rw [readText, bind_eq_ok_iff]
  constructor
  · rintro ⟨bytes, reads, decodes⟩
    split at decodes
    · rename_i found decoded
      cases decodes
      rw [reads, Text.decode_eq_ok_iff.1 decoded]
    · cases decodes
  · intro reads
    refine ⟨_, reads, ?_⟩
    rw [Text.decode_toUTF8]
    rfl

theorem relationships_eq_ok_iff {listed : List Relationship} :
    package.relationships path = .ok listed
      ↔ ∃ text, package.readBytes path = .ok text.toUTF8 ∧ Relationship.parse text = .ok listed := by
  simp only [relationships, bind_eq_ok_iff, readText_eq_ok_iff]

theorem manifest_eq_ok_iff {manifest : Manifest} :
    package.manifest = .ok manifest
      ↔ ∃ text, package.readBytes PartName.contentTypes = .ok text.toUTF8 ∧
        Manifest.parse text = .ok manifest := by
  simp only [Package.manifest, bind_eq_ok_iff, readText_eq_ok_iff]

end Package

end WordPackage
