import WordPackage.Proofs.Metadata.TagSet
import WordPackage.Proofs.Metadata.WellFormed

/-!
# Records that follow one another

Updating a document of core properties with a record sets the properties that the record
writes and leaves all others as they are. A record writes title and authors always, and
keywords, description and language only if it has tags, comments and a language. So an update
hides an earlier one exactly where it writes at least the same names: a description that only
the earlier record had is still there afterwards.
-/

namespace WordPackage

namespace MetadataRecord

variable (record : MetadataRecord)

/-- The names of the core properties that a record writes, in their order. -/
def writtenNames : List String :=
  ["dc:title", "dc:creator"]
    ++ (if record.tags.toList ≠ [] then ["cp:keywords"] else [])
    ++ (if record.comments.getD "" ≠ "" then ["dc:description"] else [])
    ++ (if record.languages ≠ [] then ["dc:language"] else [])

/-- A record writes at most five properties, always in the same order. -/
theorem sublist_writtenNames : record.writtenNames.Sublist
    ["dc:title", "dc:creator", "cp:keywords", "dc:description", "dc:language"] := by
  have optional : ∀ (condition : Prop) [Decidable condition] (name : String),
      (if condition then [name] else []).Sublist [name] := by
    intro condition _ name
    split
    · exact List.Sublist.refl _
    · exact List.nil_sublist _
  exact (((List.Sublist.refl ["dc:title", "dc:creator"]).append (optional _ _)).append
    (optional _ _)).append (optional _ _)

theorem nodup_writtenNames : record.writtenNames.Nodup :=
  record.sublist_writtenNames.nodup (by decide)

end MetadataRecord

namespace PropertyWriter

variable (writer : PropertyWriter) (properties : Properties) (record : MetadataRecord)

/-- The properties that a record writes, as elements. -/
def recordElements : List Markup.Element :=
  (writer.recordProperties record).map Properties.textElement

/-- Which properties are written is up to the record alone. -/
theorem map_name_recordElements :
    (writer.recordElements record).map (·.name) = record.writtenNames := by
  have keywords : (if record.tags.toList.isEmpty then []
      else [("cp:keywords", ", ".intercalate record.tags.toList)]).map Prod.fst
        = if record.tags.toList ≠ [] then ["cp:keywords"] else [] := by
    cases record.tags.toList with
    | nil => rfl
    | cons tag rest => rfl
  have description : (((record.comments.filter (· ≠ "")).map fun comments =>
      ("dc:description", comments)).toList).map Prod.fst
        = if record.comments.getD "" ≠ "" then ["dc:description"] else [] := by
    cases record.comments with
    | none => simp
    | some comments => by_cases empty : comments = "" <;> simp [empty]
  have language : ((record.languages.head?.map fun tag =>
      ("dc:language", writer.languages.languageValue tag)).toList).map Prod.fst
        = if record.languages ≠ [] then ["dc:language"] else [] := by
    cases record.languages with
    | nil => rfl
    | cons tag rest => rfl
  have names : (·.name) ∘ Properties.textElement = Prod.fst := rfl
  rw [recordElements, List.map_map, names, recordProperties, List.map_append, List.map_append,
    List.map_append, keywords, description, language]
  rfl

/-- An update puts what the record writes behind the properties of other names. -/
theorem root_update : (writer.update properties record).root
    = { properties.root with
        children := properties.root.children.filter (fun child => child.name ∉ record.writtenNames)
          ++ writer.recordElements record } := by
  have distinct : ((writer.recordElements record).map (·.name)).Nodup := by
    rw [map_name_recordElements]
    exact record.nodup_writtenNames
  have stepwise : writer.update properties record
      = (writer.recordElements record).foldl Properties.setElement properties := by
    rw [recordElements, List.foldl_map]
    rfl
  rw [stepwise, Properties.root_foldl_setElement_of_nodup distinct, map_name_recordElements]

theorem name_mem_writtenNames {element : Markup.Element}
    (member : element ∈ writer.recordElements record) : element.name ∈ record.writtenNames := by
  rw [← map_name_recordElements writer]
  exact List.mem_map_of_mem member

/-- The text of the keywords is made of the tags. -/
theorem text_of_keywords {element : Markup.Element}
    (member : element ∈ writer.recordElements record) (named : element.name = "cp:keywords") :
    element.text = some (", ".intercalate record.tags.toList) := by
  obtain ⟨property, listed, rfl⟩ := List.mem_map.1 member
  rw [recordProperties, List.mem_append, List.mem_append, List.mem_append] at listed
  have isKeywords : property.1 = "cp:keywords" := named
  rcases listed with ((first | keywords) | description) | language
  · simp only [List.mem_cons, List.not_mem_nil, or_false] at first
    rcases first with rfl | rfl
    · exact absurd isKeywords (show "dc:title" ≠ "cp:keywords" by decide)
    · exact absurd isKeywords (show "dc:creator" ≠ "cp:keywords" by decide)
  · split at keywords
    · cases keywords
    · obtain rfl := List.mem_singleton.1 keywords
      rfl
  · obtain ⟨comments, -, rfl⟩ := Option.map_eq_some_iff.1 (Option.mem_toList.1 description)
    exact absurd isKeywords (show "dc:description" ≠ "cp:keywords" by decide)
  · obtain ⟨tag, -, rfl⟩ := Option.map_eq_some_iff.1 (Option.mem_toList.1 language)
    exact absurd isKeywords (show "dc:language" ≠ "cp:keywords" by decide)

/-- An update replaces the properties that the record writes and no others. -/
theorem childrenNamed_update (name : String) :
    (writer.update properties record).root.childrenNamed name
      = if name ∈ record.writtenNames then
          (writer.recordElements record).filter fun element => element.name = name
        else properties.root.childrenNamed name := by
  rw [root_update, Markup.Element.childrenNamed, List.filter_append, List.filter_filter]
  split
  · rename_i written
    have replaced : properties.root.children.filter (fun child =>
        decide (child.name = name) && decide (child.name ∉ record.writtenNames)) = [] := by
      apply List.filter_eq_nil_iff.2
      intro child _ kept
      rw [Bool.and_eq_true, decide_eq_true_eq, decide_eq_true_eq] at kept
      exact kept.2 (kept.1 ▸ written)
    rw [replaced, List.nil_append]
  · rename_i unwritten
    have kept : properties.root.children.filter (fun child =>
        decide (child.name = name) && decide (child.name ∉ record.writtenNames))
          = properties.root.childrenNamed name := by
      apply List.filter_congr
      intro child _
      rw [← Bool.decide_and, decide_eq_decide]
      exact and_iff_left_of_imp fun named => named ▸ unwritten
    have none : (writer.recordElements record).filter (fun element => element.name = name)
        = [] := by
      apply List.filter_eq_nil_iff.2
      intro element member named
      exact unwritten (of_decide_eq_true named ▸ writer.name_mem_writtenNames record member)
    rw [kept, none, List.append_nil]

theorem get?_update (name : String) : (writer.update properties record).get? name
    = if name ∈ record.writtenNames then
        (writer.recordElements record).find? fun element => element.name = name
      else properties.get? name := by
  rw [Properties.get?_eq_head?, childrenNamed_update]
  split
  · exact List.head?_filter
  · exact (properties.get?_eq_head? name).symm

theorem find?_recordElements_ne_none {name : String} (written : name ∈ record.writtenNames) :
    (writer.recordElements record).find? (fun element => element.name = name) ≠ none := by
  rw [← map_name_recordElements writer] at written
  obtain ⟨element, member, named⟩ := List.mem_map.1 written
  intro absent
  exact List.find?_eq_none.1 absent element member (decide_eq_true named)

/-- An update hides an earlier one by any writer if it writes all that the earlier one wrote. -/
theorem update_update_of_subset {later : MetadataRecord} (other : PropertyWriter)
    (covered : record.writtenNames ⊆ later.writtenNames) :
    other.update (writer.update properties record) later = other.update properties later := by
  have hidden : (writer.recordElements record).filter
      (fun child => child.name ∉ later.writtenNames) = [] := by
    apply List.filter_eq_nil_iff.2
    intro element member kept
    exact of_decide_eq_true kept (covered (writer.name_mem_writtenNames record member))
  have same : (properties.root.children.filter
      (fun child => child.name ∉ record.writtenNames)).filter
        (fun child => child.name ∉ later.writtenNames)
          = properties.root.children.filter (fun child => child.name ∉ later.writtenNames) := by
    rw [List.filter_filter]
    apply List.filter_congr
    intro child _
    rw [← Bool.decide_and, decide_eq_decide]
    exact and_iff_left_of_imp fun unwritten written => unwritten (covered written)
  have roots : (other.update (writer.update properties record) later).root
      = (other.update properties later).root := by
    rw [root_update, root_update, List.filter_append, hidden, same, List.append_nil, root_update]
  exact congrArg Properties.mk roots

/-- An update leaves the properties of other names as they stand and puts those that the record
writes behind them, one of each name, the keywords being the given tags, each once and in the
order of their code points. So a second update with the same record changes nothing, and an
update with a record that writes at least as much gives the document that it would have given
without the first. -/
theorem update_replaces_written :
    ((writer.update properties record).root
        = { properties.root with
            children :=
              properties.root.children.filter (fun child => child.name ∉ record.writtenNames)
                ++ writer.recordElements record } ∧
      (writer.recordElements record).map (·.name) = record.writtenNames ∧
      ∀ given, record.tags = .ofList given → ∃ tags, tags.Pairwise (· < ·) ∧
        (∀ tag, tag ∈ tags ↔ tag ∈ given) ∧
          ∀ element ∈ writer.recordElements record, element.name = "cp:keywords" →
            element.text = some (", ".intercalate tags)) ∧
      writer.update (writer.update properties record) record = writer.update properties record ∧
      ∀ (other : PropertyWriter) (later : MetadataRecord),
        record.writtenNames ⊆ later.writtenNames →
          other.update (writer.update properties record) later
            = other.update properties later := by
  -- A record that covers the names of the one before leaves no trace of it; a record covers itself.
  refine ⟨⟨writer.root_update properties record, writer.map_name_recordElements record, ?_⟩, ?_, ?_⟩
  · intro given tagged
    refine ⟨record.tags.toList, record.tags.ascending, ?_, ?_⟩
    · intro tag
      rw [tagged]
      exact TagSet.mem_toList_ofList
    · intro element member named
      exact writer.text_of_keywords record member named
  · exact writer.update_update_of_subset properties record writer (List.Subset.refl _)
  · intro other later covered
    exact writer.update_update_of_subset properties record other covered

/-- The tags are sorted and the comments replaced where the later record has a language besides. -/
theorem update_replaces_assorted :
    ({ tags := .ofList ["b", "a", "b"], comments := some "old" } : MetadataRecord).writtenNames
        ⊆ ({ tags := .ofList ["c"], comments := some "new", languages := ["de"] }
            : MetadataRecord).writtenNames ∧
      (∃ tags, tags.Pairwise (· < ·) ∧ (∀ tag, tag ∈ tags ↔ tag ∈ ["b", "a", "b"]) ∧
        ∀ element ∈ (ofSettings {}).recordElements
            { tags := .ofList ["b", "a", "b"], comments := some "old" },
          element.name = "cp:keywords" → element.text = some (", ".intercalate tags)) ∧
      (ofSettings {}).update
          ((ofSettings {}).update .core
            { tags := .ofList ["b", "a", "b"], comments := some "old" })
          { tags := .ofList ["c"], comments := some "new", languages := ["de"] }
        = (ofSettings {}).update .core
            { tags := .ofList ["c"], comments := some "new", languages := ["de"] } := by
  have covered : ({ tags := .ofList ["b", "a", "b"], comments := some "old" }
      : MetadataRecord).writtenNames
        ⊆ ({ tags := .ofList ["c"], comments := some "new", languages := ["de"] }
            : MetadataRecord).writtenNames := by decide
  obtain ⟨⟨-, -, keywords⟩, -, absorbs⟩ := (ofSettings {}).update_replaces_written .core
    { tags := .ofList ["b", "a", "b"], comments := some "old" }
  exact ⟨covered, keywords ["b", "a", "b"] rfl, absorbs (ofSettings {}) _ covered⟩

variable (later : MetadataRecord) (now : Instant)

/-- The core properties that do not depend on a record. -/
def startedProperties : Properties :=
  Properties.core
    |>.set "cp:revision" "1"
    |>.set "cp:lastModifiedBy" writer.lastModifiedBy
    |>.setElement (instantProperty "dcterms:created" now)
    |>.setElement (instantProperty "dcterms:modified" now)

theorem coreProperties_eq_update :
    writer.coreProperties record now = writer.update (writer.startedProperties now) record := rfl

/-- No property that a record writes is there without one. -/
theorem get?_startedProperties {name : String} (written : name ∈ record.writtenNames) :
    (writer.startedProperties now).get? name = none := by
  have children : (writer.startedProperties now).root.children.map (·.name)
      = ["cp:revision", "cp:lastModifiedBy", "dcterms:created", "dcterms:modified"] := rfl
  have apart : ∀ name ∈ ["dc:title", "dc:creator", "cp:keywords", "dc:description",
      "dc:language"], name ∉ ["cp:revision", "cp:lastModifiedBy", "dcterms:created",
        "dcterms:modified"] := by decide
  apply List.find?_eq_none.2
  intro child member named
  apply apart name (record.sublist_writtenNames.subset written)
  rw [← children, ← of_decide_eq_true named]
  exact List.mem_map_of_mem member

/-- What an update leaves of the properties of an earlier record. -/
theorem get?_update_coreProperties (name : String) :
    (writer.update (writer.coreProperties record now) later).get? name
      = if name ∈ record.writtenNames ∧ name ∉ later.writtenNames then
          (writer.coreProperties record now).get? name
        else (writer.coreProperties later now).get? name := by
  rw [get?_update, coreProperties_eq_update writer later, get?_update]
  by_cases anew : name ∈ later.writtenNames
  · rw [if_pos anew, if_pos anew, if_neg fun kept => kept.2 anew]
  · rw [if_neg anew, if_neg anew]
    by_cases before : name ∈ record.writtenNames
    · rw [if_pos ⟨before, anew⟩]
    · rw [if_neg fun kept => before kept.1, coreProperties_eq_update, get?_update, if_neg before]

/-- An update of the core properties of a record gives every property that a later record would
have, unless the earlier record writes one that the later does not: that one is kept. So it comes
down to writing the later record anew exactly if this writes all that the earlier one wrote. -/
theorem update_coreProperties_keeps_unwritten :
    (∀ name, (writer.update (writer.coreProperties record now) later).get? name
      = if name ∈ record.writtenNames ∧ name ∉ later.writtenNames then
          (writer.coreProperties record now).get? name
        else (writer.coreProperties later now).get? name) ∧
      ((∀ name, (writer.update (writer.coreProperties record now) later).get? name
          = (writer.coreProperties later now).get? name)
        ↔ record.writtenNames ⊆ later.writtenNames) := by
  have exact := writer.get?_update_coreProperties record later now
  refine ⟨exact, ?_, ?_⟩
  · intro agrees name before
    by_contra unwritten
    have kept := agrees name
    rw [exact, if_pos ⟨before, unwritten⟩, coreProperties_eq_update, get?_update, if_pos before,
      coreProperties_eq_update, get?_update, if_neg unwritten,
      writer.get?_startedProperties record now before] at kept
    exact writer.find?_recordElements_ne_none record before kept
  · intro covered name
    rw [exact, if_neg fun kept => kept.2 (covered kept.1)]

/-- The keywords of a record survive an update with a record without tags. -/
theorem get?_keywords_untagged_ne :
    ((ofSettings {}).update
        ((ofSettings {}).coreProperties { tags := .ofList ["x"] } ⟨0, 0⟩) {}).get? "cp:keywords"
      ≠ ((ofSettings {}).coreProperties {} ⟨0, 0⟩).get? "cp:keywords" := by
  decide

end PropertyWriter

end WordPackage
