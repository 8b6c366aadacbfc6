import Mathlib.Data.List.Sort
import Mathlib.Data.String.Basic
import WordPackage.Proofs.ContentType.Manifest
import WordPackage.Proofs.ContentType.ReadBack
import WordPackage.Proofs.Integrity
import WordPackage.Proofs.Relationship.RoundTrip

/-!
# Reports on archives

What a check says about an archive, told from the archive alone: which entries make it
fail, and which issues it lists in which order. Identifiers and extensions are repeated
where one before them is the same, a target is held against the names of the archive,
and overrides come sorted.
-/

namespace WordPackage

/-- The issues of one relationship, given those before it in its part. -/
def Relationship.issues (part : String) (names : List String) (earlier : List Relationship)
    (relationship : Relationship) : List Issue :=
  (if relationship.id ∈ earlier.map Relationship.id then
      [.duplicateRelationshipId part relationship.id] else [])
    ++ (if relationship.mode = .internal
          ∧ resolveTarget (baseDirectory part) relationship.target ∉ names then
        [.danglingRelationship part relationship.id
          (resolveTarget (baseDirectory part) relationship.target)] else [])

namespace Archive.Entry

/-- Whether an entry is named like a relationship part. -/
def IsRelationshipPart (entry : Archive.Entry) : Prop :=
  Text.endsWith entry.name ".rels" = true

/-- Whether an entry is a text that lists relationships. -/
def Lists (entry : Archive.Entry) (listed : List Relationship) : Prop :=
  ∃ text, entry.data = text.toUTF8 ∧ Relationship.parse text = .ok listed

end Archive.Entry

/-- Whether an archive has a manifest with a text that is read as one. -/
def HasManifest (entries : List Archive.Entry) (text : String) : Prop :=
  ∃ entry ∈ entries, entry.name = PartName.contentTypes ∧ entry.data = text.toUTF8 ∧
    ∃ manifest, Manifest.parse text = .ok manifest

/-- Whether an archive cannot be checked: an entry that is named like a relationship part lists
no relationships, or there is no manifest. -/
def IsUnreadable (entries : List Archive.Entry) : Prop :=
  (∃ entry ∈ entries, entry.IsRelationshipPart ∧ ∀ listed, ¬entry.Lists listed)
    ∨ ∀ text, ¬HasManifest entries text

/-- The issues of the relationship parts among entries, in their order, given the names of the
archive. -/
inductive ReportsParts (names : List String) : List Archive.Entry → List Issue → Prop where
  | nil : ReportsParts names [] []
  | part {entry : Archive.Entry} {later : List Archive.Entry} {listed : List Relationship}
      {issues : List Issue} (named : entry.IsRelationshipPart) (lists : entry.Lists listed)
      (rest : ReportsParts names later issues) :
      ReportsParts names (entry :: later)
        ((withEarlier listed).flatMap (fun (earlier, relationship) =>
            relationship.issues entry.name names earlier) ++ issues)
  | other {entry : Archive.Entry} {later : List Archive.Entry} {issues : List Issue}
      (named : ¬entry.IsRelationshipPart) (rest : ReportsParts names later issues) :
      ReportsParts names (entry :: later) issues

/-- Whether names are those of the overrides whose part is missing, each once and in order. -/
structure AreOverriddenInVain (names : List String) (declarations : List Declaration)
    (overridden : List String) : Prop where
  sorted : overridden.Pairwise (· < ·)
  member : ∀ partName, partName ∈ overridden ↔
    partName ∈ declarations.filterMap Declaration.partName? ∧ Text.dropLeading '/' partName ∉ names

/-- Whether an entry has no content type and needs one: the manifest and directories do not. -/
def IsUncovered (declarations : List Declaration) (entry : String) : Prop :=
  entry ≠ PartName.contentTypes ∧ Text.endsWith entry "/" = false ∧
    ∀ declaration ∈ declarations, ¬declaration.Covers entry

instance (declarations : List Declaration) (entry : String) :
    Decidable (IsUncovered declarations entry) :=
  inferInstanceAs (Decidable (_ ∧ _ ∧ _))

/-- Whether issues are the report on an archive: those of its relationship parts, the extensions
that are declared again, the overrides without a part and the entries without a content type. -/
def IsReport (entries : List Archive.Entry) (issues : List Issue) : Prop :=
  ∃ ofParts text overridden,
    ReportsParts (entries.map Archive.Entry.name) entries ofParts ∧
    HasManifest entries text ∧
    AreOverriddenInVain (entries.map Archive.Entry.name) (Declaration.listed text) overridden ∧
    issues = ofParts
      ++ ((Declaration.repeatedExtensions (Declaration.listed text)).map .duplicateDefaultExtension
        ++ overridden.map .overrideWithoutPart
        ++ ((entries.map Archive.Entry.name).filter (IsUncovered (Declaration.listed text))).map
            .missingContentType)

/-- The last relationship of a part is checked with the identifiers of all others passed. -/
theorem relationshipIssues_concat (part : String) (names seen : List String)
    (listed : List Relationship) (last : Relationship) :
    relationshipIssues part names seen (listed ++ [last])
      = relationshipIssues part names seen listed
        ++ relationshipIssues part names ((listed.map Relationship.id).reverse ++ seen) [last] := by
  induction listed generalizing seen with
  | nil => rfl
  | cons first later ih =>
      simp only [List.cons_append, relationshipIssues, ih, List.map_cons, List.reverse_cons,
        List.append_assoc, List.nil_append]

/-- The issues of relationships are those of each of them, given those before it. -/
theorem relationshipIssues_eq (part : String) (names : List String) (listed : List Relationship) :
    relationshipIssues part names [] listed
      = (withEarlier listed).flatMap fun (earlier, relationship) =>
          relationship.issues part names earlier := by
  induction listed using List.reverseRecOn with
  | nil => rfl
  | append_singleton earlier last ih =>
      rw [relationshipIssues_concat, ih, withEarlier_concat, List.flatMap_append,
        List.flatMap_singleton]
      simp [relationshipIssues, Relationship.issues]

/-- Sorting distinct names puts them into strict order. -/
theorem pairwise_lt_mergeSort {names : List String} (distinct : names.Nodup) :
    (names.mergeSort fun left right => left ≤ right).Pairwise (· < ·) := by
  have ordered : (names.mergeSort fun left right => left ≤ right).Pairwise
      (fun left right => decide (left ≤ right) = true) := by
    apply List.pairwise_mergeSort
    · intro first second third
      simp only [decide_eq_true_eq]
      exact String.le_trans
    · intro first second
      simp only [Bool.or_eq_true, decide_eq_true_eq]
      exact String.le_total first second
  have apart : (names.mergeSort fun left right => left ≤ right).Nodup :=
    List.nodup_mergeSort.2 distinct
  refine (ordered.and apart).imp ?_
  rintro left right ⟨before, different⟩
  exact lt_of_le_of_ne (of_decide_eq_true before) different

/-- Sorting the names of the overrides and keeping those without a part gives the overrides in
vain. -/
theorem areOverriddenInVain_iff {names overridden : List String}
    {declarations : List Declaration} :
    AreOverriddenInVain names declarations overridden ↔
      overridden = ((Manifest.ofDeclarations declarations).overrides.keys.mergeSort
          fun left right => left ≤ right).filter
        fun partName => Text.dropLeading '/' partName ∉ names := by
  have sorted := (pairwise_lt_mergeSort
    (Manifest.nodup_keys_overrides_ofDeclarations declarations)).filter
      fun partName => decide (Text.dropLeading '/' partName ∉ names)
  constructor
  · intro vain
    apply vain.sorted.eq_of_mem_iff sorted
    intro partName
    rw [vain.member, List.mem_filter, List.mem_mergeSort,
      Manifest.mem_keys_overrides_ofDeclarations, decide_eq_true_eq]
  · rintro rfl
    refine ⟨sorted, ?_⟩
    intro partName
    rw [List.mem_filter, List.mem_mergeSort, Manifest.mem_keys_overrides_ofDeclarations,
      decide_eq_true_eq]

theorem exists_areOverriddenInVain (names : List String) (declarations : List Declaration) :
    ∃ overridden, AreOverriddenInVain names declarations overridden :=
  ⟨_, areOverriddenInVain_iff.2 rfl⟩

/-- The issues of the manifest that is read from declarations. -/
theorem manifestIssues_ofDeclarations {names overridden : List String}
    {declarations : List Declaration}
    (vain : AreOverriddenInVain names declarations overridden) :
    manifestIssues (Manifest.ofDeclarations declarations) names
      = (Declaration.repeatedExtensions declarations).map .duplicateDefaultExtension
        ++ overridden.map .overrideWithoutPart
        ++ (names.filter (IsUncovered declarations)).map .missingContentType := by
  have uncovered : ∀ entry ∈ names,
      (entry ≠ PartName.contentTypes && !Text.endsWith entry "/"
        && ((Manifest.ofDeclarations declarations).contentTypeFor entry).isNone)
        = decide (IsUncovered declarations entry) := by
    intro entry _
    rw [Bool.eq_iff_iff]
    rw [decide_eq_true_eq]
    simp only [IsUncovered, Bool.and_eq_true, decide_eq_true_eq, Bool.not_eq_true',
      Option.isNone_iff_eq_none, Manifest.contentTypeFor_ofDeclarations_eq_none_iff, and_assoc]
  rw [manifestIssues, Manifest.duplicates_ofDeclarations, List.filter_congr uncovered,
    areOverriddenInVain_iff.1 vain]

namespace Package

variable {entries : List Archive.Entry} {issues : List Issue}

theorem relationships_ofEntries_iff (distinct : (entries.map Archive.Entry.name).Nodup)
    {entry : Archive.Entry} (member : entry ∈ entries) {listed : List Relationship} :
    (ofEntries entries).relationships entry.name = .ok listed ↔ entry.Lists listed := by
  simp only [relationships_eq_ok_iff, readBytes_ofEntries distinct member, Except.ok.injEq,
    Archive.Entry.Lists]

/-- A manifest is read exactly when the archive has one, and it is that of the declarations. -/
theorem manifest_ofEntries_iff (distinct : (entries.map Archive.Entry.name).Nodup)
    {manifest : Manifest} :
    (ofEntries entries).manifest = .ok manifest
      ↔ ∃ text, HasManifest entries text ∧
        Manifest.ofDeclarations (Declaration.listed text) = manifest := by
  simp only [manifest_eq_ok_iff, readBytes_ofEntries_iff distinct]
  constructor
  · rintro ⟨text, ⟨entry, member, named, encoded⟩, parses⟩
    exact ⟨text, ⟨entry, member, named, encoded, manifest, parses⟩,
      (Manifest.parse_eq_ok_iff.1 parses).2⟩
  · rintro ⟨text, ⟨entry, member, named, encoded, parsed, parses⟩, rfl⟩
    rw [← (Manifest.parse_eq_ok_iff.1 parses).2] at parses
    exact ⟨text, ⟨entry, member, named, encoded⟩, parses⟩

/-- The parts among some entries are checked with the issues that are reported for them. -/
theorem issuesOfParts_ofEntries_iff (distinct : (entries.map Archive.Entry.name).Nodup)
    {some : List Archive.Entry} (included : ∀ entry ∈ some, entry ∈ entries) :
    (ofEntries entries).issuesOfParts
        ((some.map Archive.Entry.name).filter fun name => Text.endsWith name ".rels") = .ok issues
      ↔ ReportsParts (entries.map Archive.Entry.name) some issues := by
  -- The issues of a part depend on the names of all entries, so the induction is on some of them.
  induction some generalizing issues with
  | nil =>
      constructor
      · intro checked
        obtain rfl := Except.ok.inj checked
        exact .nil
      · rintro ⟨⟩
        rfl
  | cons entry later ih =>
      have rest : ∀ {issues : List Issue}, _ := fun {issues} => @ih issues fun other member =>
        included other (List.mem_cons_of_mem entry member)
      have here := @relationships_ofEntries_iff entries distinct entry
        (included entry List.mem_cons_self)
      by_cases named : Text.endsWith entry.name ".rels" = true
      · rw [List.map_cons, List.filter_cons, if_pos named, issuesOfParts]
        simp only [bind_eq_ok_iff]
        constructor
        · rintro ⟨listed, lists, others, checked, result⟩
          obtain rfl := Except.ok.inj result
          rw [relationshipIssues_eq, names_ofEntries distinct]
          exact .part named (here.1 lists) (rest.1 checked)
        · intro reports
          cases reports with
          | part _ lists others =>
              refine ⟨_, here.2 lists, _, rest.2 others, ?_⟩
              rw [relationshipIssues_eq, names_ofEntries distinct]
              rfl
          | other unnamed _ => exact absurd named unnamed
      · rw [List.map_cons, List.filter_cons, if_neg named, rest]
        constructor
        · exact .other named
        · intro reports
          cases reports with
          | part also _ _ => exact absurd also named
          | other _ others => exact others

/-- The relationship parts of an archive are checked with the issues that are reported for
them. -/
theorem issuesOfParts_relationshipParts_iff (distinct : (entries.map Archive.Entry.name).Nodup) :
    (ofEntries entries).issuesOfParts (ofEntries entries).relationshipParts = .ok issues
      ↔ ReportsParts (entries.map Archive.Entry.name) entries issues := by
  rw [relationshipParts, names_ofEntries distinct]
  exact issuesOfParts_ofEntries_iff distinct fun _ member => member

/-- All relationship parts can be read exactly when the entries that are named so list
relationships. -/
theorem forall_relationshipParts_iff (distinct : (entries.map Archive.Entry.name).Nodup) :
    (∀ part ∈ (ofEntries entries).relationshipParts,
        ∃ listed, (ofEntries entries).relationships part = .ok listed)
      ↔ ∀ entry ∈ entries, entry.IsRelationshipPart → ∃ listed, entry.Lists listed := by
  rw [relationshipParts, names_ofEntries distinct]
  constructor
  · intro reads entry member named
    obtain ⟨listed, lists⟩ := reads entry.name
      (List.mem_filter.2 ⟨List.mem_map_of_mem member, named⟩)
    exact ⟨listed, (relationships_ofEntries_iff distinct member).1 lists⟩
  · intro lists part member
    obtain ⟨held, named⟩ := List.mem_filter.1 member
    obtain ⟨entry, inside, rfl⟩ := List.mem_map.1 held
    obtain ⟨listed, here⟩ := lists entry inside named
    exact ⟨listed, (relationships_ofEntries_iff distinct inside).2 here⟩

/-- A check fails exactly on unreadable archives. -/
theorem exists_failure_iff (distinct : (entries.map Archive.Entry.name).Nodup) :
    (∃ failure, (ofEntries entries).issues = .error failure) ↔ IsUnreadable entries := by
  have fails : (∃ failure, (ofEntries entries).issues = .error failure)
      ↔ ¬∃ issues, (ofEntries entries).issues = .ok issues := by
    cases (ofEntries entries).issues <;> simp
  have manifest : (∃ manifest, (ofEntries entries).manifest = .ok manifest)
      ↔ ∃ text, HasManifest entries text := by
    simp [manifest_ofEntries_iff distinct]
  rw [fails, exists_issues_iff, forall_relationshipParts_iff distinct, manifest, IsUnreadable]
  simp only [not_and_or, not_forall, not_exists, exists_prop]

/-- A check of an archive fails exactly if a relationship part or the manifest cannot be read,
and otherwise gives the report on the archive and nothing else. -/
theorem issues_are_report (distinct : (entries.map Archive.Entry.name).Nodup) :
    ((∃ failure, (ofEntries entries).issues = .error failure) ↔ IsUnreadable entries) ∧
      ∀ issues, (ofEntries entries).issues = .ok issues ↔ IsReport entries issues := by
  refine ⟨exists_failure_iff distinct, ?_⟩
  intro issues
  simp only [issues_eq_ok_iff, issuesOfParts_relationshipParts_iff distinct,
    manifest_ofEntries_iff distinct, names_ofEntries distinct]
  constructor
  · rintro ⟨ofParts, _, reports, ⟨text, holds, rfl⟩, rfl⟩
    obtain ⟨overridden, vain⟩ := exists_areOverriddenInVain
      (entries.map Archive.Entry.name) (Declaration.listed text)
    exact ⟨ofParts, text, overridden, reports, holds, vain, by rw [manifestIssues_ofDeclarations vain]⟩
  · rintro ⟨ofParts, text, overridden, reports, holds, vain, rfl⟩
    exact ⟨ofParts, _, reports, ⟨text, holds, rfl⟩, by rw [manifestIssues_ofDeclarations vain]⟩

/-- An entry that holds a text. -/
def entryOfText (name text : String) : Archive.Entry := ⟨name, text.toUTF8, .stored⟩

theorem relationships_of_mem {entries : List Archive.Entry} {name text : String}
    {listed : List Relationship} (distinct : (entries.map Archive.Entry.name).Nodup)
    (member : entryOfText name text ∈ entries) (parses : Relationship.parse text = .ok listed) :
    (ofEntries entries).relationships name = .ok listed :=
  relationships_eq_ok_iff.2 ⟨text, readBytes_ofEntries distinct member, parses⟩

theorem manifest_of_mem {entries : List Archive.Entry} {text : String} {manifest : Manifest}
    (distinct : (entries.map Archive.Entry.name).Nodup)
    (member : entryOfText PartName.contentTypes text ∈ entries)
    (parses : Manifest.parse text = .ok manifest) : (ofEntries entries).manifest = .ok manifest :=
  manifest_eq_ok_iff.2 ⟨text, readBytes_ofEntries distinct member, parses⟩

/-- A registry with one relationship, to an entry that no archive here has. -/
def lost : Registry :=
  Registry.empty.register { target := "lost", kind := RelationshipType.image }

/-- Declarations of one extension and of one part that no archive here has. -/
def vacant : Declarations :=
  { defaults := [("xml", "t")], overrides := [("/vacant.xml", "t")] }

/-- An archive of a manifest and a relationship part that both lead astray. -/
def astray : List Archive.Entry :=
  [ entryOfText PartName.contentTypes (vacant.part .compact),
    entryOfText PartName.packageRelationships (lost.part .compact) ]

/-- The report on this archive names the relationship, the override and the entry without a
content type. -/
theorem astray_is_reported :
    (astray.map Archive.Entry.name).Nodup ∧
      IsReport astray
        [ .danglingRelationship PartName.packageRelationships "rId1" "lost",
          .overrideWithoutPart "/vacant.xml",
          .missingContentType PartName.packageRelationships ] := by
  have distinct : (astray.map Archive.Entry.name).Nodup := by decide
  have names := names_ofEntries distinct
  have lists : (ofEntries astray).relationships PartName.packageRelationships
      = .ok (lost.relationships.map Relationship.written) :=
    relationships_of_mem distinct (List.mem_cons_of_mem _ List.mem_cons_self)
      (lost.parse_part .compact)
  have reads := manifest_of_mem distinct List.mem_cons_self (vacant.parse_part .compact)
  have parts : (ofEntries astray).relationshipParts = [PartName.packageRelationships] := by
    rw [relationshipParts, names]
    decide +kernel
  refine ⟨distinct, ((issues_are_report distinct).2 _).1 (issues_eq_ok_iff.2 ?_)⟩
  refine ⟨relationshipIssues PartName.packageRelationships (astray.map Archive.Entry.name) []
    (lost.relationships.map Relationship.written), vacant.manifest, ?_, reads, ?_⟩
  · rw [parts, issuesOfParts, lists, names]
    simp [issuesOfParts, bind, Except.bind, pure, Except.pure]
  · rw [names]
    have sorted : vacant.manifest.overrides.keys.mergeSort (fun left right => left ≤ right)
        = ["/vacant.xml"] := by
      have keys : vacant.manifest.overrides.keys = ["/vacant.xml"] := by decide +kernel
      rw [keys, List.mergeSort_singleton]
    rw [manifestIssues, sorted]
    decide +kernel

end Package

end WordPackage
