import WordPackage.Proofs.Archive.RoundTrip
import WordPackage.Proofs.ContentType.Manifest
import WordPackage.Proofs.ContentType.ReadBack
import WordPackage.Proofs.Draft.Archive
import WordPackage.Proofs.Draft.Closure
import WordPackage.Proofs.Integrity
import WordPackage.Proofs.Relationship.RoundTrip

/-!
# Integrity of written drafts

What a check may find in the package of a draft. References resolve and are
unique, but for two things: a target that is not written as it is leads
elsewhere when it is read, and an embedded resource may have an extension that
is unknown or not written as it is. Embedded resources that are named like
relationship parts are read as such; what they list is theirs.
-/

namespace WordPackage

namespace Draft

variable {draft : Draft}

/-- The parts of a draft that have an override, with their content types. -/
def overriddenParts (draft : Draft) : List (String × String) :=
  fixedParts ++ draft.optionalParts.keys.map fun part => (part.path, part.contentType)

/-- The declarations of the manifest of a draft. -/
def declarations (draft : Draft) : Declarations :=
  .forPackage draft.overriddenParts (draft.images.paths ++ draft.fonts.paths) draft.mime

theorem contentTypesPart_eq (draft : Draft) :
    draft.contentTypesPart = draft.declarations.part draft.layout := rfl

/-- Every part with an override is an entry, and its name is written as it is. -/
theorem overriddenParts_spec {path : String} (member : path ∈ draft.overriddenParts.map Prod.fst) :
    path ∈ draft.entryNames ∧ Markup.escaped (rooted path) = rooted path ∧
      Text.dropLeading '/' (rooted path) = path := by
  have fixed : ∀ path ∈ fixedParts.map Prod.fst, path ∈ fixedEntries ∧
      path.toList.head? ≠ some '/' ∧ Markup.IsLiteral path := by decide
  have optional : ∀ part ∈ OptionalPart.all,
      part.path.toList.head? ≠ some '/' ∧ Markup.IsLiteral part.path := by decide
  rw [overriddenParts, List.map_append, List.map_map] at member
  rcases List.mem_append.1 member with own | supplied
  · obtain ⟨entry, relative, literal⟩ := fixed path own
    exact ⟨mem_entryNames_iff.2 (.inl entry), escaped_rooted literal, dropLeading_rooted relative⟩
  · obtain ⟨part, held, rfl⟩ := List.mem_map.1 supplied
    obtain ⟨relative, literal⟩ := optional part (OptionalPart.mem_all part)
    exact ⟨mem_entryNames_iff.2 (.inr (.inl ⟨part, held, rfl⟩)), escaped_rooted literal,
      dropLeading_rooted relative⟩

/-- The overrides that are read back are those of the parts. -/
theorem mem_keys_overrides_iff {partName : String} :
    partName ∈ draft.declarations.manifest.overrides.keys ↔
      ∃ path ∈ draft.overriddenParts.map Prod.fst, partName = rooted path := by
  have declared : draft.declarations.overrides.keys
      = ((draft.overriddenParts.map Prod.fst).map rooted).eraseDups := by
    rw [declarations, Declarations.overrides_forPackage, Assignments.keys_ofList, List.map_map,
      List.map_map]
    rfl
  rw [Declarations.mem_keys_overrides_manifest, declared]
  constructor
  · rintro ⟨name, member, rfl⟩
    obtain ⟨path, held, rfl⟩ := List.mem_map.1 (List.mem_eraseDups.1 member)
    exact ⟨path, held, (overriddenParts_spec held).2.1⟩
  · rintro ⟨path, held, rfl⟩
    exact ⟨rooted path, List.mem_eraseDups.2 (List.mem_map_of_mem held),
      (overriddenParts_spec held).2.1.symm⟩

/-- An entry without a content type is an embedded resource, and what stands after its last dot
is either not written as it is or not known to the lookup. -/
theorem missing_contentType (caseless : MimeLookup.IsCaseless draft.mime) {entry : String}
    (member : entry ∈ draft.entryNames) (notManifest : entry ≠ PartName.contentTypes)
    (missing : draft.declarations.manifest.contentTypeFor entry = none) :
    entry ∈ draft.images.paths ++ draft.fonts.paths ∧
      ∀ extension, Text.afterLast? '.' entry = some extension →
        Markup.IsLiteral extension → draft.mime extension = none := by
  obtain ⟨noOverride, noDefault⟩ := Manifest.contentTypeFor_eq_none_iff.1 missing
  have undeclared : ∀ extension, Text.afterLast? '.' entry = some extension →
      Markup.IsLiteral extension → Text.foldAscii extension ∉ draft.declarations.extensions := by
    intro extension last literal declared
    have found := Declarations.isSome_defaults_manifest literal declared
    rw [noDefault extension last] at found
    cases found
  -- The manifest overrides the entries that every package has and the optional parts, or declares
  -- their extension, so that only resources are left.
  have notOverridden : entry ∉ draft.overriddenParts.map Prod.fst := fun held =>
    noOverride (mem_keys_overrides_iff.2 ⟨entry, held, rfl⟩)
  have resource : entry ∈ draft.images.paths ++ draft.fonts.paths := by
    have fixed : ∀ entry ∈ fixedEntries, entry = PartName.contentTypes ∨
        Text.afterLast? '.' entry = some "rels" ∨ entry ∈ fixedParts.map Prod.fst := by
      decide
    rcases mem_entryNames_iff.1 member with own | ⟨part, held, rfl⟩ | embedded
    · rcases fixed entry own with manifest | relationships | overridden
      · exact absurd manifest notManifest
      · refine absurd ?_ (undeclared "rels" relationships (by decide))
        exact (by decide : Text.foldAscii "rels" = "rels") ▸
          Declarations.rels_mem_extensions_forPackage _ _
      · refine absurd ?_ notOverridden
        rw [overriddenParts, List.map_append]
        exact List.mem_append_left _ overridden
    · refine absurd ?_ notOverridden
      rw [overriddenParts, List.map_append, List.map_map]
      exact List.mem_append_right _ (List.mem_map_of_mem held)
    · exact List.mem_append.2 embedded
  refine ⟨resource, ?_⟩
  intro extension last literal
  have orderly := Declarations.isOrderly_forPackage draft.overriddenParts
    (draft.images.paths ++ draft.fonts.paths) caseless
  have considered : Text.foldAscii (extensionOf entry) ∈ draft.declarations.considered :=
    Declarations.mem_considered_forPackage _ _ resource
  rw [extensionOf, last, Option.getD_some] at considered
  rcases orderly.decided _ considered with declared | unknown
  · exact absurd declared (undeclared extension last literal)
  · exact unknown extension rfl

theorem baseDirectory_documentRelationships :
    baseDirectory PartName.documentRelationships = PartName.wordDirectory := by
  decide

theorem baseDirectory_fontTableRelationships :
    baseDirectory PartName.fontTableRelationships = PartName.wordDirectory := by
  decide

/-- A relationship that dangles when its part is read back was registered with a target that is
not written as it is. -/
theorem dangling_not_literal {registry : Registry} {names : List String}
    (leads : registry.LeadsInto names) {part id target : String}
    (base : baseDirectory part = PartName.wordDirectory)
    (dangling : .danglingRelationship part id target ∈ relationshipIssues part names []
      (registry.relationships.map Relationship.written)) :
    ∃ key, (id, key) ∈ registry.entries ∧ ¬Markup.IsLiteral key.target := by
  obtain ⟨relationship, member, rfl, internal, rfl, absent⟩ :=
    dangling_mem_relationshipIssues_iff.1 dangling
  obtain ⟨registered, listed, rfl⟩ := List.mem_map.1 member
  obtain ⟨⟨id, key⟩, entry, rfl⟩ := List.mem_map.1 listed
  refine ⟨key, entry, ?_⟩
  intro literal
  have known : key ∈ registry.keys := by
    rw [← registry.map_snd_entries]
    exact List.mem_map_of_mem entry
  obtain ⟨proper, held⟩ := leads key known internal
  refine absent ?_
  show resolveTarget (baseDirectory part) (Markup.escaped key.target) ∈ names
  rw [base, literal.escaped_eq, proper.resolveTarget_eq]
  exact held

theorem duplicate_notMem {registry : Registry} {part : String} (names : List String)
    (id : String) :
    .duplicateRelationshipId part id ∉ relationshipIssues part names []
      (registry.relationships.map Relationship.written) := by
  apply duplicate_notMem_relationshipIssues
  · rw [List.map_map, Registry.relationships, List.map_map]
    exact registry.nodup_identifiers
  · exact fun _ _ => List.not_mem_nil

/-- The relationships of the package itself lead to entries that every package has. -/
theorem dangling_notMem_package {id target : String} :
    .danglingRelationship PartName.packageRelationships id target ∉
      relationshipIssues PartName.packageRelationships draft.entryNames []
        (Registry.package.relationships.map Relationship.written) := by
  intro dangling
  obtain ⟨relationship, member, rfl, -, rfl, absent⟩ :=
    dangling_mem_relationshipIssues_iff.1 dangling
  have own : ∀ relationship ∈ Registry.package.relationships.map Relationship.written,
      resolveTarget (baseDirectory PartName.packageRelationships) relationship.target
        ∈ fixedEntries := by decide
  exact absent (mem_entryNames_iff.2 (.inl (own relationship member)))

/-- The relationship parts that every package has. -/
def ownRelationshipParts : List String :=
  [PartName.packageRelationships, PartName.documentRelationships, PartName.fontTableRelationships]

/-- The issues that the package of a draft may have. -/
def Admits (draft : Draft) : Issue → Prop
  | .overrideWithoutPart _ => False
  | .duplicateDefaultExtension _ => False
  | .duplicateRelationshipId part _ =>
      part ∉ [PartName.packageRelationships, PartName.documentRelationships,
        PartName.fontTableRelationships]
  | .danglingRelationship part id _ =>
      part ≠ PartName.packageRelationships ∧
      (part = PartName.documentRelationships →
        ∃ key, (id, key) ∈ draft.documentRelationships.entries ∧ ¬Markup.IsLiteral key.target) ∧
      (part = PartName.fontTableRelationships →
        ∃ key, (id, key) ∈ draft.fontTableRelationships.entries ∧ ¬Markup.IsLiteral key.target)
  | .missingContentType entry =>
      entry ∈ draft.images.paths ++ draft.fonts.paths ∧
        ∀ extension, Text.afterLast? '.' entry = some extension →
          Markup.IsLiteral extension → draft.mime extension = none

section Checking

variable {now : Instant} {tree : Storage.Tree} {sink : Sink} {entries : List Archive.Entry}

theorem IsConsistent.names_write (consistent : draft.IsConsistent)
    (succeeds : (draft.write now tree sink).result = .ok entries) :
    (Package.ofEntries entries).names = draft.entryNames := by
  rw [Package.names_ofEntries (consistent.nodup_names_write succeeds), map_name_write succeeds]

/-- A relationship part of a draft is read as the relationships of its registry, as they are
written. -/
theorem IsConsistent.relationships_write (consistent : draft.IsConsistent)
    (succeeds : (draft.write now tree sink).result = .ok entries) {part : String}
    {registry : Registry} (member : (part, registry.part draft.layout) ∈ draft.parts now) :
    (Package.ofEntries entries).relationships part
      = .ok (registry.relationships.map Relationship.written) :=
  bind_eq_ok_iff.2
    ⟨_, consistent.readText_write succeeds member, registry.parse_part draft.layout⟩

/-- The relationships that a check reads from the three relationship parts of every package. -/
theorem IsConsistent.own_relationships_write (consistent : draft.IsConsistent)
    (succeeds : (draft.write now tree sink).result = .ok entries) :
    (Package.ofEntries entries).relationships PartName.packageRelationships
        = .ok (Registry.package.relationships.map Relationship.written) ∧
      (Package.ofEntries entries).relationships PartName.documentRelationships
        = .ok (draft.documentRelationships.relationships.map Relationship.written) ∧
      (Package.ofEntries entries).relationships PartName.fontTableRelationships
        = .ok (draft.fontTableRelationships.relationships.map Relationship.written) := by
  refine ⟨consistent.relationships_write succeeds ?_, consistent.relationships_write succeeds ?_,
    consistent.relationships_write succeeds ?_⟩
  · exact List.mem_append_left _ (List.mem_of_getElem? (i := 1) rfl)
  · exact List.mem_append_left _ (List.mem_of_getElem? (i := 8) rfl)
  · exact List.mem_append_left _ (List.mem_of_getElem? (i := 9) rfl)

/-- The manifest of a draft is read as that of its declarations. -/
theorem IsConsistent.manifest_write (consistent : draft.IsConsistent)
    (succeeds : (draft.write now tree sink).result = .ok entries) :
    (Package.ofEntries entries).manifest = .ok draft.declarations.manifest := by
  have part : (PartName.contentTypes, draft.contentTypesPart) ∈ draft.parts now :=
    List.mem_append_left _ List.mem_cons_self
  have parses : Manifest.parse draft.contentTypesPart = .ok draft.declarations.manifest := by
    rw [contentTypesPart_eq]
    exact draft.declarations.parse_part draft.layout
  exact bind_eq_ok_iff.2 ⟨_, consistent.readText_write succeeds part, parses⟩

/-- Whatever a check finds in the package of a closed draft is admitted. -/
theorem IsClosed.admits (closed : draft.IsClosed)
    (succeeds : (draft.write now tree sink).result = .ok entries) {issues : List Issue}
    (checked : (Package.ofEntries entries).issues = .ok issues) {issue : Issue}
    (member : issue ∈ issues) : draft.Admits issue := by
  have consistent := closed.consistent
  have names := consistent.names_write succeeds
  obtain ⟨ofPackage, ofDocument, ofFontTable⟩ := consistent.own_relationships_write succeeds
  rcases Package.exists_of_mem_issues checked member with
    ⟨part, -, listed, lists, stems⟩ | ⟨manifest, reads, stems⟩
  · -- What is listed is known for the three parts that every package has.
    rw [names] at stems
    have known : ∀ {registry : Registry}, (Package.ofEntries entries).relationships part
        = .ok (registry.relationships.map Relationship.written) →
        listed = registry.relationships.map Relationship.written := fun reads =>
      Except.ok.inj (lists.symm.trans reads)
    rcases relationshipIssues_kinds stems with ⟨id, rfl⟩ | ⟨id, target, rfl⟩
    · intro own
      simp only [List.mem_cons, List.not_mem_nil, or_false] at own
      rcases own with rfl | rfl | rfl
      · exact duplicate_notMem _ id (known ofPackage ▸ stems)
      · exact duplicate_notMem _ id (known ofDocument ▸ stems)
      · exact duplicate_notMem _ id (known ofFontTable ▸ stems)
    · refine ⟨?_, ?_, ?_⟩
      · rintro rfl
        exact dangling_notMem_package (known ofPackage ▸ stems)
      · rintro rfl
        exact dangling_not_literal closed.document baseDirectory_documentRelationships
          (known ofDocument ▸ stems)
      · rintro rfl
        exact dangling_not_literal closed.fontTable baseDirectory_fontTableRelationships
          (known ofFontTable ▸ stems)
  · obtain rfl := Except.ok.inj (reads.symm.trans (consistent.manifest_write succeeds))
    rw [names] at stems
    rcases mem_manifestIssues_iff.1 stems with
      ⟨extension, twice, rfl⟩ | ⟨partName, overridden, absent, rfl⟩ |
        ⟨entry, held, notManifest, -, missing, rfl⟩
    · have orderly := Declarations.isOrderly_forPackage draft.overriddenParts
        (draft.images.paths ++ draft.fonts.paths) closed.caseless
      rw [declarations, orderly.isDistinct.duplicates_manifest] at twice
      cases twice
    · obtain ⟨path, part, rfl⟩ := mem_keys_overrides_iff.1 overridden
      obtain ⟨present, -, unrooted⟩ := overriddenParts_spec part
      rw [unrooted] at absent
      exact absent present
    · exact missing_contentType closed.caseless held notManifest missing

/-- The same holds of a check that opens the package from its bytes. -/
theorem IsClosed.admits_of_bytes (closed : draft.IsClosed)
    (succeeds : (draft.write now tree sink).result = .ok entries) (fits : Archive.Fits entries)
    {issues : List Issue}
    (checked : (Package.ofBytes (Archive.toBytes entries) >>= Package.issues) = .ok issues)
    {issue : Issue} (member : issue ∈ issues) : draft.Admits issue := by
  rw [Package.issues_ofBytes_toBytes fits] at checked
  exact closed.admits succeeds checked member

/-- The relationship parts of a package are the three that every package has, and the embedded
resources that are named so. -/
theorem IsConsistent.mem_relationshipParts_iff (consistent : draft.IsConsistent)
    (succeeds : (draft.write now tree sink).result = .ok entries) {part : String} :
    part ∈ (Package.ofEntries entries).relationshipParts ↔
      part ∈ ownRelationshipParts ∨
        (part ∈ draft.images.paths ++ draft.fonts.paths ∧ Text.endsWith part ".rels" = true) := by
  have fixed : ∀ part ∈ fixedEntries,
      Text.endsWith part ".rels" = true ↔ part ∈ ownRelationshipParts := by decide
  have own : ∀ part ∈ ownRelationshipParts, part ∈ fixedEntries := by decide
  have optional : ∀ part ∈ OptionalPart.all, Text.endsWith part.path ".rels" = false := by
    decide
  rw [Package.relationshipParts, List.mem_filter, consistent.names_write succeeds,
    mem_entryNames_iff, List.mem_append]
  constructor
  · rintro ⟨fixedName | ⟨supplied, -, rfl⟩ | embedded, ending⟩
    · exact .inl ((fixed part fixedName).1 ending)
    · rw [optional supplied (OptionalPart.mem_all supplied)] at ending
      cases ending
    · exact .inr ⟨embedded, ending⟩
  · rintro (ours | ⟨embedded, ending⟩)
    · exact ⟨.inl (own part ours), (fixed part (own part ours)).2 ours⟩
    · exact ⟨.inr (.inr embedded), ending⟩

/-- The package of a draft can be checked exactly where every embedded resource that is named like
a relationship part lists relationships. -/
theorem IsConsistent.exists_issues_write_iff (consistent : draft.IsConsistent)
    (succeeds : (draft.write now tree sink).result = .ok entries) :
    (∃ issues, (Package.ofEntries entries).issues = .ok issues) ↔
      ∀ path ∈ draft.images.paths ++ draft.fonts.paths, Text.endsWith path ".rels" = true →
        ∃ listed, (Package.ofEntries entries).relationships path = .ok listed := by
  rw [Package.exists_issues_iff]
  constructor
  · rintro ⟨lists, -⟩ path embedded ending
    exact lists path ((consistent.mem_relationshipParts_iff succeeds).2 (.inr ⟨embedded, ending⟩))
  · intro lists
    refine ⟨?_, _, consistent.manifest_write succeeds⟩
    intro part member
    obtain ⟨ofPackage, ofDocument, ofFontTable⟩ := consistent.own_relationships_write succeeds
    rcases (consistent.mem_relationshipParts_iff succeeds).1 member with ours | ⟨embedded, ending⟩
    · simp only [ownRelationshipParts, List.mem_cons, List.not_mem_nil, or_false] at ours
      rcases ours with rfl | rfl | rfl
      · exact ⟨_, ofPackage⟩
      · exact ⟨_, ofDocument⟩
      · exact ⟨_, ofFontTable⟩
    · exact lists part embedded ending

/-- The package of a draft can be checked where no embedded resource is named like a
relationship part. -/
theorem IsConsistent.exists_issues_write (consistent : draft.IsConsistent)
    (succeeds : (draft.write now tree sink).result = .ok entries)
    (plain : ∀ path ∈ draft.images.paths ++ draft.fonts.paths,
      Text.endsWith path ".rels" = false) :
    ∃ issues, (Package.ofEntries entries).issues = .ok issues := by
  apply (consistent.exists_issues_write_iff succeeds).2
  intro path embedded ending
  rw [plain path embedded] at ending
  cases ending

end Checking

/-- Whatever ordinary operations led to a draft, a check of its package finds no override
without a part, no extension declared twice, no duplicate or dangling relationship of the package
itself, no duplicate relationship of the main document or the font table, dangling ones there
only where the registered target is not written as it is, and no content type missing but for
embedded resources without an extension that is written as it is and known. -/
theorem admits_issues_of_write (settings : Settings) {operations : List Operation}
    (ordinary : ∀ operation ∈ operations, operation.IsOrdinary) {now : Instant}
    {tree : Storage.Tree} {sink : Sink} {entries : List Archive.Entry} {issues : List Issue}
    (succeeds : (((ofSettings settings).run operations).write now tree sink).result
      = .ok entries)
    (checked : (Package.ofEntries entries).issues = .ok issues) :
    ∀ issue ∈ issues, ((ofSettings settings).run operations).Admits issue := by
  intro issue member
  exact ((IsClosed.ofSettings settings).run ordinary).admits succeeds checked member

/-- Operations that embed an image whose target has an ampersand and a font, register a link,
supply an optional part and add a content type. -/
def assorted : List Operation := [
  .addImage "media/a&b.png" (.held ⟨#[1]⟩),
  .relateDocument
    { target := "http://e/", kind := RelationshipType.hyperlink, mode := .external },
  .addFont "/fonts/f.odttf" ⟨#[2]⟩,
  .setOptionalPart .numbering "<w:numbering/>",
  .useMimeLookup ((MimeTable.withType {} "EMF" "image/x-emf").lookup)]

/-- The package of these operations is written and checked, and what is found is admitted. -/
theorem exists_issues_assorted :
    ∃ entries issues,
      (((ofSettings {}).run assorted).write ⟨0, 0⟩ {} .unrestricted).result = .ok entries ∧
        (Package.ofEntries entries).issues = .ok issues ∧
          ∀ issue ∈ issues, ((ofSettings {}).run assorted).Admits issue := by
  have consistent := (IsConsistent.ofSettings {}).run assorted
  have ordinary : ∀ operation ∈ assorted, operation.IsOrdinary := by
    simp only [assorted, List.forall_mem_cons]
    exact ⟨trivial, rfl, trivial, trivial, ⟨_, rfl⟩, fun _ member => nomatch member⟩
  have images : ∀ image ∈ ((ofSettings {}).run assorted).images.toList,
      image = ("word/media/a&b.png", .held ⟨#[1]⟩) := by
    intro image member
    obtain ⟨target, offered, path⟩ := exists_of_mem_images_run member
    simp only [assorted, List.mem_cons, Operation.addImage.injEq, reduceCtorEq,
      List.not_mem_nil, or_false] at offered
    obtain ⟨rfl, source⟩ := offered
    refine Prod.ext (path.trans ?_) source
    decide +kernel
  have fonts : ∀ font ∈ ((ofSettings {}).run assorted).fonts.toList,
      font.1 = "word/fonts/f.odttf" := by
    intro font member
    obtain ⟨target, offered, path⟩ := exists_of_mem_fonts_run member
    simp only [assorted, List.mem_cons, Operation.addFont.injEq, reduceCtorEq,
      List.not_mem_nil, or_false, false_or] at offered
    obtain ⟨rfl, -⟩ := offered
    refine path.trans ?_
    decide +kernel
  obtain ⟨entries, succeeds⟩ := consistent.exists_write ⟨0, 0⟩ Sink.refuses_unrestricted
    (fun image member => ⟨⟨#[1]⟩, by rw [images image member]; rfl⟩)
  obtain ⟨issues, checked⟩ := consistent.exists_issues_write succeeds (by
    intro path member
    rcases List.mem_append.1 member with image | font
    · obtain ⟨pair, held, rfl⟩ := List.mem_map.1 image
      rw [images pair held]
      decide +kernel
    · obtain ⟨pair, held, rfl⟩ := List.mem_map.1 font
      rw [fonts pair held]
      decide +kernel)
  exact ⟨entries, issues, succeeds, checked,
    admits_issues_of_write {} ordinary succeeds checked⟩

end Draft

end WordPackage
