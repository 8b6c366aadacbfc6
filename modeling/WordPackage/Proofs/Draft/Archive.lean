import WordPackage.Proofs.Draft.Writing

/-!
# Archives of drafts

A draft holds what its history says: each optional part, image and font once, in
the order of their first occurrence, with what was given for it last. Its
archive holds the same, behind the entries that every package has.
-/

namespace WordPackage

namespace Draft

variable {draft : Draft}

/-- An operation assigns the image that it records, if it records one. -/
theorem IsConsistent.images_perform (consistent : draft.IsConsistent) (operation : Operation) :
    (draft.perform operation).images.toList
      = Assignments.setAll draft.images.toList (draft.acceptedImage? operation).toList := by
  cases operation with
  | setDocument _ | setStyles _ | setFontTable _ | setMetadata _ | useMimeLookup _
  | usePropertyWriter _ | setOptionalPart _ _ | relateDocument _ | relateFontTable _ => rfl
  | addImage target source =>
      rcases draft.perform_addImage target source with
        ⟨resource, -, -, -, next, recorded⟩ | ⟨next, recorded⟩
      · rw [next, recorded]
        exact consistent.images.aligned.toList_insert resource.path source
      · rw [next, recorded]
        rfl
  | addFont target data =>
      rw [(draft.perform_addFont_frame target data).1]
      rfl

/-- An operation assigns the font that it records, if it records one. -/
theorem IsConsistent.fonts_perform (consistent : draft.IsConsistent) (operation : Operation) :
    (draft.perform operation).fonts.toList
      = Assignments.setAll draft.fonts.toList (draft.acceptedFont? operation).toList := by
  cases operation with
  | setDocument _ | setStyles _ | setFontTable _ | setMetadata _ | useMimeLookup _
  | usePropertyWriter _ | setOptionalPart _ _ | relateDocument _ | relateFontTable _ => rfl
  | addImage target source =>
      rw [(draft.perform_addImage_frame target source).1]
      rfl
  | addFont target data =>
      rcases draft.perform_addFont target data with
        ⟨resource, -, -, -, next, recorded⟩ | ⟨next, recorded⟩
      · rw [next, recorded]
        exact consistent.fonts.aligned.toList_insert resource.path data
      · rw [next, recorded]
        rfl

theorem settings_perform (draft : Draft) (operation : Operation) :
    (draft.perform operation).settings = draft.settings := by
  cases operation with
  | setDocument _ | setStyles _ | setFontTable _ | setMetadata _ | useMimeLookup _
  | usePropertyWriter _ | setOptionalPart _ _ | relateDocument _ | relateFontTable _ => rfl
  | addImage target source => exact (draft.perform_addImage_frame target source).2.2
  | addFont target data => exact (draft.perform_addFont_frame target data).2.2

section Run

variable (settings : Settings) (operations : List Operation)

theorem images_run : ((ofSettings settings).run operations).images.toList
    = Assignments.ofList ((ofSettings settings).history operations).images :=
  contents_run (fun draft => draft.images.toList) acceptedImage?
    (fun _ operation consistent => consistent.perform operation)
    (fun _ operation consistent => consistent.images_perform operation)
    (IsConsistent.ofSettings settings) operations

theorem fonts_run : ((ofSettings settings).run operations).fonts.toList
    = Assignments.ofList ((ofSettings settings).history operations).fonts :=
  contents_run (fun draft => draft.fonts.toList) acceptedFont?
    (fun _ operation consistent => consistent.perform operation)
    (fun _ operation consistent => consistent.fonts_perform operation)
    (IsConsistent.ofSettings settings) operations

theorem settings_run : ((ofSettings settings).run operations).settings = settings := by
  apply holds_run (fun draft => draft.settings = settings)
  · intro draft operation _ same
    rw [settings_perform, same]
  · rfl

end Run

/-- Every image of a run was offered by one of its operations. -/
theorem exists_of_mem_images_run {settings : Settings} {operations : List Operation}
    {image : String × ResourceSource}
    (member : image ∈ ((ofSettings settings).run operations).images.toList) :
    ∃ target, .addImage target image.2 ∈ operations ∧
      image.1 = PartName.wordDirectory ++ Text.dropLeading '/' target := by
  obtain ⟨before, operation, performed, records⟩ :=
    exists_of_mem_contents (images_run settings operations) member
  obtain ⟨target, rfl, path⟩ := exists_of_acceptedImage? records
  exact ⟨target, performed, path⟩

/-- Every font of a run was offered by one of its operations. -/
theorem exists_of_mem_fonts_run {settings : Settings} {operations : List Operation}
    {font : String × ByteArray}
    (member : font ∈ ((ofSettings settings).run operations).fonts.toList) :
    ∃ target, .addFont target font.2 ∈ operations ∧
      font.1 = PartName.wordDirectory ++ Text.dropLeading '/' target := by
  obtain ⟨before, operation, performed, records⟩ :=
    exists_of_mem_contents (fonts_run settings operations) member
  obtain ⟨target, rfl, path⟩ := exists_of_acceptedFont? records
  exact ⟨target, performed, path⟩

section Reading

variable {now : Instant} {tree : Storage.Tree} {sink : Sink} {entries : List Archive.Entry}

theorem map_name_write (succeeds : (draft.write now tree sink).result = .ok entries) :
    entries.map Archive.Entry.name = draft.entryNames := by
  rw [PlannedEntry.map_of_yields (yields_of_write succeeds) PlannedEntry.Yields.name, map_name_plan]

theorem IsConsistent.nodup_names_write (consistent : draft.IsConsistent)
    (succeeds : (draft.write now tree sink).result = .ok entries) :
    (entries.map Archive.Entry.name).Nodup := by
  rw [map_name_write succeeds]
  exact consistent.nodup_entryNames

/-- Under the name of a planned entry stand the bytes of its payload. -/
theorem IsConsistent.readBytes_write (consistent : draft.IsConsistent)
    (succeeds : (draft.write now tree sink).result = .ok entries) {planned : PlannedEntry}
    (member : planned ∈ draft.plan now) :
    ∃ data, planned.payload.read tree = .ok data ∧
      (Package.ofEntries entries).readBytes planned.name = .ok data := by
  obtain ⟨entry, written, yields⟩ := PlannedEntry.exists_of_yields (yields_of_write succeeds) member
  refine ⟨entry.data, yields.data, ?_⟩
  rw [← yields.name]
  exact Package.readBytes_ofEntries (consistent.nodup_names_write succeeds) written

/-- Every part of a draft is read as its text. -/
theorem IsConsistent.readText_write (consistent : draft.IsConsistent)
    (succeeds : (draft.write now tree sink).result = .ok entries) {part : String × String}
    (member : part ∈ draft.parts now) :
    (Package.ofEntries entries).readText part.1 = .ok part.2 := by
  have planned : (⟨part.1, .bytes part.2.toUTF8, draft.settings.xmlCompression⟩ : PlannedEntry)
      ∈ draft.plan now :=
    List.mem_append_left _ (List.mem_append_left _ (List.mem_map_of_mem member))
  obtain ⟨data, reads, held⟩ := consistent.readBytes_write succeeds planned
  obtain rfl := Except.ok.inj reads
  exact Package.readText_eq_ok_iff.2 held

/-- Every image of a draft is read as the bytes of its source. -/
theorem IsConsistent.readImage_write (consistent : draft.IsConsistent)
    (succeeds : (draft.write now tree sink).result = .ok entries)
    {image : String × ResourceSource} (member : image ∈ draft.images.toList) :
    ∃ data, image.2.read tree = .ok data ∧
      (Package.ofEntries entries).readBytes image.1 = .ok data := by
  have planned : (⟨image.1, .source image.2, draft.settings.mediaCompression⟩ : PlannedEntry)
      ∈ draft.plan now :=
    List.mem_append_left _ (List.mem_append_right _ (List.mem_map_of_mem member))
  exact consistent.readBytes_write succeeds planned

/-- Every font of a draft is read as its bytes. -/
theorem IsConsistent.readFont_write (consistent : draft.IsConsistent)
    (succeeds : (draft.write now tree sink).result = .ok entries)
    {font : String × ByteArray} (member : font ∈ draft.fonts.toList) :
    (Package.ofEntries entries).readBytes font.1 = .ok font.2 := by
  have planned : (⟨font.1, .bytes font.2, draft.settings.mediaCompression⟩ : PlannedEntry)
      ∈ draft.plan now :=
    List.mem_append_right _ (List.mem_map_of_mem member)
  obtain ⟨data, reads, held⟩ := consistent.readBytes_write succeeds planned
  obtain rfl := Except.ok.inj reads
  exact held

/-- Parts are compressed as the settings say for parts, resources as they say for resources. -/
theorem map_compression_write (succeeds : (draft.write now tree sink).result = .ok entries) :
    entries.map Archive.Entry.compression
      = List.replicate (10 + draft.optionalParts.keys.length) draft.settings.xmlCompression
        ++ List.replicate (draft.images.paths.length + draft.fonts.paths.length)
            draft.settings.mediaCompression := by
  rw [PlannedEntry.map_of_yields (yields_of_write succeeds) PlannedEntry.Yields.compression, plan]
  simp only [List.map_append, List.map_map, Function.comp_def, List.map_const', List.append_assoc,
    List.replicate_append_replicate]
  have count : (draft.parts now).length = 10 + draft.optionalParts.keys.length := by
    rw [parts, List.length_append, List.length_map, Assignments.keys, List.length_map]
    rfl
  simp [count, ResourceStore.paths, ResourceStore.toList]

end Reading

/-- Whether an archive holds what a history leads to: the entries that every package has, each
optional part in the order in which they were first supplied, then each image and each font in
the order in which they were first accepted, all under different names and each with what was
given for it last. -/
structure History.IsArchivedAs (history : History) (settings : Settings) (tree : Storage.Tree)
    (entries : List Archive.Entry) : Prop where
  names : entries.map Archive.Entry.name
    = fixedEntries ++ (((history.parts.map Prod.fst).eraseDups.map OptionalPart.path)
        ++ ((history.images.map Prod.fst).eraseDups ++ (history.fonts.map Prod.fst).eraseDups))
  distinct : (entries.map Archive.Entry.name).Nodup
  parts : ∀ part ∈ history.parts.map Prod.fst, ∃ text,
    history.parts.reverse.lookup part = some text ∧
      (Package.ofEntries entries).readText part.path = .ok (Markup.ensureDeclaration text)
  images : ∀ path ∈ history.images.map Prod.fst, ∃ source data,
    history.images.reverse.lookup path = some source ∧ source.read tree = .ok data ∧
      (Package.ofEntries entries).readBytes path = .ok data
  fonts : ∀ path ∈ history.fonts.map Prod.fst, ∃ data,
    history.fonts.reverse.lookup path = some data ∧
      (Package.ofEntries entries).readBytes path = .ok data
  compressions : entries.map Archive.Entry.compression
    = List.replicate (10 + (history.parts.map Prod.fst).eraseDups.length) settings.xmlCompression
      ++ List.replicate ((history.images.map Prod.fst).eraseDups.length
          + (history.fonts.map Prod.fst).eraseDups.length) settings.mediaCompression

/-- What a history gives for a key last is what a draft holds under it. -/
theorem exists_last {κ α : Type} [DecidableEq κ] {contents : Assignments κ α}
    {pairs : List (κ × α)} (recorded : contents = Assignments.ofList pairs) {key : κ}
    (member : key ∈ pairs.map Prod.fst) :
    ∃ value, pairs.reverse.lookup key = some value ∧ (key, value) ∈ contents := by
  have held : key ∈ Assignments.keys contents := by
    rw [recorded, Assignments.keys_ofList, List.mem_eraseDups]
    exact member
  obtain ⟨value, found⟩ := Option.isSome_iff_exists.1 ((Assignments.get?_isSome_iff _ _).2 held)
  refine ⟨value, ?_, Assignments.mem_of_get? found⟩
  rw [← Assignments.get?_ofList, ← recorded]
  exact found

/-- The archive of a draft holds what the history of the draft leads to. -/
theorem isArchivedAs_of_write {settings : Settings} {operations : List Operation} {now : Instant}
    {tree : Storage.Tree} {sink : Sink} {entries : List Archive.Entry}
    (succeeds : (((ofSettings settings).run operations).write now tree sink).result
      = .ok entries) :
    ((ofSettings settings).history operations).IsArchivedAs settings tree entries := by
  have consistent := (IsConsistent.ofSettings settings).run operations
  have parts := optionalParts_run settings operations
  have images := images_run settings operations
  have fonts := fonts_run settings operations
  have partKeys := congrArg Assignments.keys parts
  have imageKeys := congrArg Assignments.keys images
  have fontKeys := congrArg Assignments.keys fonts
  rw [Assignments.keys_ofList] at partKeys imageKeys fontKeys
  constructor
  · rw [map_name_write succeeds, entryNames, partKeys, ← imageKeys, ← fontKeys]
    rfl
  · exact consistent.nodup_names_write succeeds
  · intro part member
    obtain ⟨text, last, held⟩ := exists_last parts member
    refine ⟨text, last, ?_⟩
    have written : (part.path, Markup.ensureDeclaration text)
        ∈ ((ofSettings settings).run operations).parts now :=
      List.mem_append_right _ (List.mem_map_of_mem held)
    exact consistent.readText_write succeeds written
  · intro path member
    obtain ⟨source, last, held⟩ := exists_last images member
    obtain ⟨data, reads, written⟩ := consistent.readImage_write succeeds held
    exact ⟨source, data, last, reads, written⟩
  · intro path member
    obtain ⟨data, last, held⟩ := exists_last fonts member
    exact ⟨data, last, consistent.readFont_write succeeds held⟩
  · rw [map_compression_write succeeds, settings_run, partKeys, ← imageKeys, ← fontKeys]
    rfl

/-- A draft whose images can be read is written wherever nothing is refused, and its archive
holds what the history of the draft leads to. -/
theorem write_isArchived (settings : Settings) (operations : List Operation) (now : Instant)
    {tree : Storage.Tree} {sink : Sink} (accepts : ∀ entry, sink.refuses entry = none)
    (readable : ∀ image ∈ ((ofSettings settings).run operations).images.toList,
      ∃ data, image.2.read tree = .ok data) :
    ∃ entries,
      (((ofSettings settings).run operations).write now tree sink).result = .ok entries ∧
        ((ofSettings settings).history operations).IsArchivedAs settings tree entries := by
  have consistent := (IsConsistent.ofSettings settings).run operations
  obtain ⟨entries, succeeds⟩ := consistent.exists_write now accepts readable
  exact ⟨entries, succeeds, isArchivedAs_of_write succeeds⟩

/-- Operations that register an image twice under different spellings of its target, offer a
font under the same target in between, and supply a theme. -/
def respelled : List Operation := [
  .addImage "media/a.png" (.held ⟨#[1]⟩),
  .addFont "/media/a.png" ⟨#[2]⟩,
  .addImage "//media/a.png" (.held ⟨#[3]⟩),
  .setOptionalPart .theme "<a:theme/>"]

/-- The draft of these operations is written, and its archive holds their history. -/
theorem exists_write_respelled :
    ∃ entries, (((ofSettings {}).run respelled).write ⟨0, 0⟩ {} .unrestricted).result = .ok entries ∧
      ((ofSettings {}).history respelled).IsArchivedAs {} {} entries := by
  apply write_isArchived
  · exact Sink.refuses_unrestricted
  · intro image member
    obtain ⟨target, offered, -⟩ := exists_of_mem_images_run member
    simp only [respelled, List.mem_cons, Operation.addImage.injEq, reduceCtorEq,
      List.not_mem_nil, or_false, false_or] at offered
    rcases offered with ⟨-, held⟩ | ⟨-, held⟩
    · exact ⟨_, by rw [held]; rfl⟩
    · exact ⟨_, by rw [held]; rfl⟩

end Draft

end WordPackage
