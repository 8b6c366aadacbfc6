import WordPackage.Integrity
import WordPackage.Proofs.Package

/-!
# What the issues of a package say

Every issue of a package stems from one relationship part or from the manifest,
and says of it exactly what its kind stands for. A check succeeds where all
relationship parts and the manifest can be read.
-/

namespace WordPackage

section RelationshipParts

variable {part : String} {names seen : List String} {listed : List Relationship}

/-- The relationships of a part have issues of two kinds, and all of them name the part. -/
theorem relationshipIssues_kinds {issue : Issue}
    (member : issue ∈ relationshipIssues part names seen listed) :
    (∃ id, issue = .duplicateRelationshipId part id) ∨
      ∃ id target, issue = .danglingRelationship part id target := by
  induction listed generalizing seen with
  | nil => cases member
  | cons relationship later ih =>
      rw [relationshipIssues, List.mem_append, List.mem_append] at member
      rcases member with (repeated | dangling) | rest
      · split at repeated
        · exact .inl ⟨_, List.mem_singleton.1 repeated⟩
        · cases repeated
      · split at dangling
        · exact .inr ⟨_, _, List.mem_singleton.1 dangling⟩
        · cases dangling
      · exact ih rest

/-- No identifier is reported as a duplicate where all are distinct and new. -/
theorem duplicate_notMem_relationshipIssues (distinct : (listed.map Relationship.id).Nodup)
    (new : ∀ relationship ∈ listed, relationship.id ∉ seen) (id : String) :
    .duplicateRelationshipId part id ∉ relationshipIssues part names seen listed := by
  induction listed generalizing seen with
  | nil => exact List.not_mem_nil
  | cons relationship later ih =>
      rw [List.map_cons, List.nodup_cons] at distinct
      intro member
      rw [relationshipIssues, List.mem_append, List.mem_append] at member
      rcases member with (repeated | dangling) | rest
      · rw [if_neg (new relationship List.mem_cons_self)] at repeated
        cases repeated
      · split at dangling
        · cases List.mem_singleton.1 dangling
        · cases dangling
      · refine ih distinct.2 ?_ rest
        intro other otherMember known
        rcases List.mem_cons.1 known with same | earlier
        · exact distinct.1 (same ▸ List.mem_map_of_mem otherMember)
        · exact new other (List.mem_cons_of_mem _ otherMember) earlier

/-- A relationship is reported as dangling exactly when it is internal and its target leads to
no entry. -/
theorem dangling_mem_relationshipIssues_iff {id target : String} :
    .danglingRelationship part id target ∈ relationshipIssues part names seen listed ↔
      ∃ relationship ∈ listed, relationship.id = id ∧ relationship.mode = .internal ∧
        resolveTarget (baseDirectory part) relationship.target = target ∧ target ∉ names := by
  -- The identifiers seen before matter to repeated ones only, so they vary in the induction.
  induction listed generalizing seen with
  | nil => simp [relationshipIssues]
  | cons relationship later ih =>
      rw [relationshipIssues, List.mem_append, List.mem_append, ih]
      constructor
      · rintro ((repeated | dangling) | ⟨other, member, found⟩)
        · split at repeated
          · cases List.mem_singleton.1 repeated
          · cases repeated
        · split at dangling
          · rename_i leads
            obtain ⟨-, rfl, rfl⟩ := Issue.danglingRelationship.inj (List.mem_singleton.1 dangling)
            exact ⟨relationship, List.mem_cons_self, rfl, leads.1, rfl, leads.2⟩
          · cases dangling
        · exact ⟨other, List.mem_cons_of_mem _ member, found⟩
      · rintro ⟨other, member, rfl, internal, rfl, absent⟩
        rcases List.mem_cons.1 member with rfl | rest
        · left
          right
          rw [if_pos ⟨internal, absent⟩]
          exact List.mem_cons_self
        · exact .inr ⟨other, rest, rfl, internal, rfl, absent⟩

end RelationshipParts

/-- An issue of a manifest is an extension that was declared again, an override whose name is
no entry, or an entry without a content type. -/
theorem mem_manifestIssues_iff {manifest : Manifest} {names : List String} {issue : Issue} :
    issue ∈ manifestIssues manifest names ↔
      (∃ extension ∈ manifest.duplicates, issue = .duplicateDefaultExtension extension) ∨
      (∃ partName ∈ manifest.overrides.keys, Text.dropLeading '/' partName ∉ names ∧
        issue = .overrideWithoutPart partName) ∨
      (∃ entry ∈ names, entry ≠ PartName.contentTypes ∧ Text.endsWith entry "/" = false ∧
        manifest.contentTypeFor entry = none ∧ issue = .missingContentType entry) := by
  simp only [manifestIssues, List.mem_append, List.mem_map, List.mem_filter, List.mem_mergeSort,
    Bool.and_eq_true, decide_eq_true_eq, Bool.not_eq_true', Option.isNone_iff_eq_none, or_assoc,
    and_assoc, ne_eq, @eq_comm _ issue]

namespace Package

variable {package : Package}

/-- Every issue of relationship parts stems from one of them. -/
theorem exists_of_mem_issuesOfParts {parts : List String} {issues : List Issue}
    (checked : package.issuesOfParts parts = .ok issues) {issue : Issue}
    (member : issue ∈ issues) :
    ∃ part ∈ parts, ∃ listed, package.relationships part = .ok listed ∧
      issue ∈ relationshipIssues part package.names [] listed := by
  induction parts generalizing issues with
  | nil =>
      obtain rfl := Except.ok.inj checked
      cases member
  | cons part later ih =>
      rw [issuesOfParts] at checked
      obtain ⟨listed, lists, checked⟩ := bind_eq_ok_iff.1 checked
      obtain ⟨rest, others, checked⟩ := bind_eq_ok_iff.1 checked
      obtain rfl := Except.ok.inj checked
      rcases List.mem_append.1 member with here | further
      · exact ⟨part, List.mem_cons_self, listed, lists, here⟩
      · obtain ⟨other, found, stems⟩ := ih others further
        exact ⟨other, List.mem_cons_of_mem _ found, stems⟩

/-- The issues of a package are those of its relationship parts and of its manifest. -/
theorem issues_eq_ok_iff {issues : List Issue} :
    package.issues = .ok issues ↔ ∃ ofParts manifest,
      package.issuesOfParts package.relationshipParts = .ok ofParts ∧
        package.manifest = .ok manifest ∧
          ofParts ++ manifestIssues manifest package.names = issues := by
  simp only [Package.issues, bind_eq_ok_iff, exists_and_left]
  constructor
  · rintro ⟨ofParts, checked, manifest, reads, result⟩
    exact ⟨ofParts, checked, manifest, reads, Except.ok.inj result⟩
  · rintro ⟨ofParts, checked, manifest, reads, rfl⟩
    exact ⟨ofParts, checked, manifest, reads, rfl⟩

/-- Every issue of a package stems from one of its relationship parts or from its manifest. -/
theorem exists_of_mem_issues {issues : List Issue} (checked : package.issues = .ok issues)
    {issue : Issue} (member : issue ∈ issues) :
    (∃ part ∈ package.relationshipParts, ∃ listed, package.relationships part = .ok listed ∧
      issue ∈ relationshipIssues part package.names [] listed) ∨
    ∃ manifest, package.manifest = .ok manifest ∧
      issue ∈ manifestIssues manifest package.names := by
  obtain ⟨ofParts, manifest, partsChecked, reads, rfl⟩ := issues_eq_ok_iff.1 checked
  rcases List.mem_append.1 member with ofPart | ofManifest
  · exact .inl (exists_of_mem_issuesOfParts partsChecked ofPart)
  · exact .inr ⟨manifest, reads, ofManifest⟩

/-- Relationship parts are checked exactly where all of them can be read. -/
theorem exists_issuesOfParts_iff {parts : List String} :
    (∃ issues, package.issuesOfParts parts = .ok issues)
      ↔ ∀ part ∈ parts, ∃ listed, package.relationships part = .ok listed := by
  induction parts with
  | nil =>
      constructor
      · intro _ part member
        cases member
      · intro _
        exact ⟨[], rfl⟩
  | cons part later ih =>
      rw [List.forall_mem_cons, ← ih]
      simp only [issuesOfParts, bind_eq_ok_iff]
      constructor
      · rintro ⟨_, listed, lists, rest, checked, _⟩
        exact ⟨⟨listed, lists⟩, rest, checked⟩
      · rintro ⟨⟨listed, lists⟩, rest, checked⟩
        exact ⟨_, listed, lists, rest, checked, rfl⟩

/-- A package is checked exactly where its relationship parts and its manifest can be read. -/
theorem exists_issues_iff :
    (∃ issues, package.issues = .ok issues)
      ↔ (∀ part ∈ package.relationshipParts, ∃ listed, package.relationships part = .ok listed)
        ∧ ∃ manifest, package.manifest = .ok manifest := by
  rw [← exists_issuesOfParts_iff]
  simp only [issues_eq_ok_iff]
  constructor
  · rintro ⟨_, ofParts, manifest, checked, reads, _⟩
    exact ⟨⟨ofParts, checked⟩, manifest, reads⟩
  · rintro ⟨⟨ofParts, checked⟩, manifest, reads⟩
    exact ⟨_, ofParts, manifest, checked, reads, rfl⟩

end Package

end WordPackage
