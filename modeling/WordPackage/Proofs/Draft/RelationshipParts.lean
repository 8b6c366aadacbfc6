import WordPackage.Proofs.Draft.Integrity
import WordPackage.Proofs.Integrity.Report

/-!
# Resources that are named like relationship parts

An embedded resource may take any name that no other part has, also one with the ending
of a relationship part. A check goes by the ending, so it reads such a resource as a
relationship part: it fails where the bytes list no relationships, and reports those that
they list. No other resource is read so.
-/

namespace WordPackage

/-- The relationship part that an issue is about, if it is about one. -/
def Issue.relationshipPart? : Issue → Option String
  | .danglingRelationship part _ _ => some part
  | .duplicateRelationshipId part _ => some part
  | .overrideWithoutPart _ => none
  | .missingContentType _ => none
  | .duplicateDefaultExtension _ => none

/-- An issue that is about a relationship part comes from the relationships of that part. -/
theorem Package.exists_of_relationshipPart? {package : Package} {issues : List Issue}
    (checked : package.issues = .ok issues) {issue : Issue} (member : issue ∈ issues)
    {part : String} (about : issue.relationshipPart? = some part) :
    part ∈ package.relationshipParts := by
  rcases exists_of_mem_issues checked member with ⟨own, listed, _, _, stems⟩ | ⟨_, _, stems⟩
  · rcases relationshipIssues_kinds stems with ⟨id, rfl⟩ | ⟨id, target, rfl⟩
    · exact Option.some.inj about ▸ listed
    · exact Option.some.inj about ▸ listed
  · rcases mem_manifestIssues_iff.1 stems with ⟨_, _, rfl⟩ | ⟨_, _, _, rfl⟩ | ⟨_, _, _, _, _, rfl⟩
    · cases about
    · cases about
    · cases about

namespace Draft

/-- What a check of the archive of a draft makes of the names of embedded resources. -/
structure IsCheckedByName (draft : Draft) (entries : List Archive.Entry) : Prop where
  /-- The check succeeds exactly if every resource that is named like a relationship part holds a
  text that lists relationships. -/
  succeeds : (∃ issues, (Package.ofEntries entries).issues = .ok issues) ↔
    ∀ entry ∈ entries, entry.name ∈ draft.images.paths ++ draft.fonts.paths →
      entry.IsRelationshipPart → ∃ listed, entry.Lists listed
  /-- A relationship is reported of one of the three parts that every package has, or of a resource
  that is named like a relationship part. -/
  about : ∀ issues, (Package.ofEntries entries).issues = .ok issues → ∀ issue ∈ issues,
    ∀ part, issue.relationshipPart? = some part →
      part ∈ ownRelationshipParts ∨
        (part ∈ draft.images.paths ++ draft.fonts.paths ∧ Text.endsWith part ".rels" = true)

section Checking

variable {draft : Draft} {now : Instant} {tree : Storage.Tree} {sink : Sink}
  {entries : List Archive.Entry}

/-- The archive of a consistent draft is checked by name. -/
theorem IsConsistent.isCheckedByName (consistent : draft.IsConsistent)
    (succeeds : (draft.write now tree sink).result = .ok entries) :
    draft.IsCheckedByName entries := by
  have distinct := consistent.nodup_names_write succeeds
  constructor
  case succeeds =>
    rw [consistent.exists_issues_write_iff succeeds]
    constructor
    · intro reads entry member embedded ending
      obtain ⟨listed, lists⟩ := reads entry.name embedded ending
      exact ⟨listed, (Package.relationships_ofEntries_iff distinct member).1 lists⟩
    · intro lists path embedded ending
      have held : path ∈ entries.map Archive.Entry.name := by
        rw [map_name_write succeeds, mem_entryNames_iff, ← List.mem_append]
        exact .inr (.inr embedded)
      obtain ⟨entry, member, rfl⟩ := List.mem_map.1 held
      obtain ⟨listed, here⟩ := lists entry member embedded ending
      exact ⟨listed, (Package.relationships_ofEntries_iff distinct member).2 here⟩
  case about =>
    intro issues checked issue member part about
    exact (consistent.mem_relationshipParts_iff succeeds).1
      (Package.exists_of_relationshipPart? checked member about)

end Checking

/-- Whatever operations led to a draft, a check of its archive succeeds exactly if the embedded
resources that are named like relationship parts list relationships, and reports relationships
of no other resources. -/
theorem write_isCheckedByName (settings : Settings) (operations : List Operation) {now : Instant}
    {tree : Storage.Tree} {sink : Sink} {entries : List Archive.Entry}
    (succeeds : (((ofSettings settings).run operations).write now tree sink).result
      = .ok entries) :
    ((ofSettings settings).run operations).IsCheckedByName entries :=
  ((IsConsistent.ofSettings settings).run operations).isCheckedByName succeeds

/-- A font under a name that ends like that of a relationship part. -/
def disguise (data : ByteArray) : List Operation := [.addFont "a.rels" data]

/-- The font is embedded, and nothing else. -/
theorem resources_disguise (data : ByteArray) :
    ((ofSettings {}).run (disguise data)).fonts.toList = [("word/a.rels", data)] ∧
      ((ofSettings {}).run (disguise data)).images.toList = [] := by
  have parsed : ResourceTarget.parse "a.rels" = .ok ⟨"a.rels"⟩ :=
    ResourceTarget.parse_eq_ok_iff.2 (by decide)
  have free : (ofSettings {}).images.contains (ResourceTarget.path ⟨"a.rels"⟩) = false := by
    simp [ofSettings, ResourceStore.contains, ResourceStore.empty]
  have path : ResourceTarget.path ⟨"a.rels"⟩ = "word/a.rels" := by decide
  rw [disguise, run_cons, run_nil, perform_addFont_of_free parsed free, ← path]
  exact ⟨ResourceStore.aligned_empty.toList_insert _ data, rfl⟩

/-- The draft is written whatever bytes the font has, and a check of the archive succeeds exactly
if they list relationships. -/
theorem exists_write_disguise (data : ByteArray) :
    ∃ entries,
      (((ofSettings {}).run (disguise data)).write ⟨0, 0⟩ {} .unrestricted).result = .ok entries ∧
        ((∃ issues, (Package.ofEntries entries).issues = .ok issues) ↔
          ∃ text listed, data = text.toUTF8 ∧ Relationship.parse text = .ok listed) := by
  have consistent := (IsConsistent.ofSettings {}).run (disguise data)
  obtain ⟨fonts, images⟩ := resources_disguise data
  obtain ⟨entries, succeeds⟩ := consistent.exists_write ⟨0, 0⟩ Sink.refuses_unrestricted (by
    intro image member
    rw [images] at member
    cases member)
  have reads : (Package.ofEntries entries).readBytes "word/a.rels" = .ok data :=
    consistent.readFont_write succeeds (fonts ▸ List.mem_cons_self)
  have paths : ((ofSettings {}).run (disguise data)).images.paths
      ++ ((ofSettings {}).run (disguise data)).fonts.paths = ["word/a.rels"] := by
    show _ ++ ((ofSettings {}).run (disguise data)).fonts.toList.map Prod.fst = _
    rw [fonts]
    show ((ofSettings {}).run (disguise data)).images.toList.map Prod.fst ++ _ = _
    rw [images]
    rfl
  have ending : Text.endsWith "word/a.rels" ".rels" = true := by decide
  refine ⟨entries, succeeds, ?_⟩
  rw [consistent.exists_issues_write_iff succeeds, paths]
  simp only [List.mem_singleton, forall_eq, ending, forall_const,
    Package.relationships_eq_ok_iff, reads, Except.ok.injEq]
  exact exists_comm

/-- The relationship part of a new document, embedded as a font, is written and checked as a
relationship part. -/
theorem exists_issues_disguise :
    ∃ entries,
      (((ofSettings {}).run (disguise (Registry.document.part .compact).toUTF8)).write
          ⟨0, 0⟩ {} .unrestricted).result = .ok entries ∧
        ((ofSettings {}).run (disguise (Registry.document.part .compact).toUTF8)).IsCheckedByName
          entries ∧
        ∃ issues, (Package.ofEntries entries).issues = .ok issues := by
  obtain ⟨entries, succeeds, checks⟩ :=
    exists_write_disguise (Registry.document.part .compact).toUTF8
  exact ⟨entries, succeeds, write_isCheckedByName {} _ succeeds,
    checks.2 ⟨_, _, rfl, Registry.document.parse_part .compact⟩⟩

/-- A font of one byte that begins no character is embedded and written, and the check fails. -/
theorem exists_failure_disguise :
    ∃ entries,
      (((ofSettings {}).run (disguise ⟨#[0xff]⟩)).write ⟨0, 0⟩ {} .unrestricted).result
          = .ok entries ∧
        ∃ failure, (Package.ofEntries entries).issues = .error failure := by
  obtain ⟨entries, succeeds, checks⟩ := exists_write_disguise ⟨#[0xff]⟩
  refine ⟨entries, succeeds, ?_⟩
  cases checked : (Package.ofEntries entries).issues with
  | error failure => exact ⟨failure, rfl⟩
  | ok issues =>
      obtain ⟨text, listed, encodes, -⟩ := checks.1 ⟨issues, checked⟩
      have decodes := Text.decode_eq_ok_iff.2 encodes
      have fails : (Text.decode ⟨#[0xff]⟩).toOption = none := by decide +kernel
      rw [decodes] at fails
      cases fails

end Draft

end WordPackage
