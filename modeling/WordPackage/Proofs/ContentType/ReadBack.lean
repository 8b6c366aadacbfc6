import WordPackage.ContentType.Manifest
import WordPackage.Proofs.ContentType.Declarations
import WordPackage.Proofs.Markup.WrittenDocument

/-!
# Reading the manifest back

A manifest is read as the declarations it was written from, with every name and
type as it stands in the document. No extension is found declared twice, since
writing keeps apart what differs by more than ASCII case.
-/

namespace WordPackage

/-- A written name of a part gets a slash where the name does. -/
theorem rooted_escaped (path : String) :
    rooted (Markup.escaped path) = Markup.escaped (rooted path) := by
  have first : (Markup.escaped path).toList.head? = some '/' ↔ path.toList.head? = some '/' := by
    rw [Markup.toList_escaped]
    exact Markup.isSeparator_slash.head?_escape_iff
  by_cases slash : path.toList.head? = some '/'
  · rw [rooted, rooted, if_pos slash, if_pos (first.2 slash)]
  · rw [rooted, rooted, if_neg slash, if_neg (mt first.1 slash), ← String.toList_inj,
      String.toList_append, Markup.toList_escaped, Markup.toList_escaped, String.toList_append,
      Markup.escape_append]
    rfl

theorem escaped_rooted {path : String} (literal : Markup.IsLiteral path) :
    Markup.escaped (rooted path) = rooted path := by
  rw [← rooted_escaped, literal.escaped_eq]

/-- The name of a part that is relative gets a slash, and loses it again. -/
theorem dropLeading_rooted {path : String} (relative : path.toList.head? ≠ some '/') :
    Text.dropLeading '/' (rooted path) = path := by
  rw [rooted, if_neg relative, ← String.toList_inj, Text.toList_dropLeading, String.toList_append]
  show (path.toList).dropWhile _ = _
  cases chars : path.toList with
  | nil => rfl
  | cons first rest =>
      apply List.dropWhile_cons_of_neg
      rw [chars, List.head?_cons] at relative
      simpa using relative

namespace Declaration

/-- The name of the element of a declaration. -/
def elementName : Declaration → String
  | .default _ _ => "Default"
  | .override _ _ => "Override"

/-- The attributes of the element of a declaration. -/
def attributes : Declaration → List (String × String)
  | .default extension contentType => [("Extension", extension), ("ContentType", contentType)]
  | .override partName contentType => [("PartName", partName), ("ContentType", contentType)]

theorem element_eq (declaration : Declaration) :
    declaration.element
      = { name := declaration.elementName, attributes := declaration.attributes } := by
  cases declaration with
  | default extension contentType => rfl
  | override partName contentType => rfl

theorem isName_elementName (declaration : Declaration) :
    Markup.IsName declaration.elementName.toList := by
  cases declaration with
  | default extension contentType => exact (by decide : Markup.IsName "Default".toList)
  | override partName contentType => exact (by decide : Markup.IsName "Override".toList)

theorem isName_attributes (declaration : Declaration) :
    ∀ pair ∈ declaration.attributes, Markup.IsName pair.1.toList := by
  cases declaration with
  | default extension contentType => simp [attributes]; decide
  | override partName contentType => simp [attributes]; decide

theorem nodup_attributes (declaration : Declaration) :
    (declaration.attributes.map Prod.fst).Nodup := by
  cases declaration with
  | default extension contentType => simp [attributes]
  | override partName contentType => simp [attributes]

end Declaration

namespace Manifest

variable (manifest : Manifest)

theorem addTag_default {tag : Markup.Tag} {extension contentType : String}
    (named : tag.isNamed "Default" = true) (first : tag.attribute? "Extension" = some extension)
    (second : tag.attribute? "ContentType" = some contentType) :
    manifest.addTag tag = manifest.addDefault extension contentType := by
  rw [addTag, if_pos named, first, second]

theorem addTag_override {tag : Markup.Tag} {partName contentType : String}
    (other : tag.isNamed "Default" = false) (named : tag.isNamed "Override" = true)
    (first : tag.attribute? "PartName" = some partName)
    (second : tag.attribute? "ContentType" = some contentType) :
    manifest.addTag tag = manifest.addOverride partName contentType := by
  rw [addTag, if_neg (Bool.eq_false_iff.1 other), if_pos named, first, second]

theorem addTag_other {tag : Markup.Tag} (notDefault : tag.isNamed "Default" = false)
    (notOverride : tag.isNamed "Override" = false) : manifest.addTag tag = manifest := by
  rw [addTag, if_neg (Bool.eq_false_iff.1 notDefault), if_neg (Bool.eq_false_iff.1 notOverride)]

/-- The tag of a declaration adds it, with its values as they are written. -/
theorem addTag_written (declaration : Declaration) :
    manifest.addTag (.written declaration.elementName declaration.attributes)
      = match declaration with
        | .default extension contentType =>
            manifest.addDefault (Markup.escaped extension) (Markup.escaped contentType)
        | .override partName contentType =>
            manifest.addOverride (Markup.escaped partName) (Markup.escaped contentType) := by
  have value := Markup.Tag.attribute?_written declaration.isName_elementName
    declaration.isName_attributes declaration.nodup_attributes
  cases declaration with
  | default extension contentType =>
      apply addTag_default
      · rw [Markup.Tag.isNamed_written (Declaration.isName_elementName _)]
        exact (by decide : Markup.hasLocalName "Default".toList "Default".toList = true)
      · rw [value]
        simp [Declaration.attributes, Assignments.get?]
      · rw [value]
        simp [Declaration.attributes, Assignments.get?]
  | override partName contentType =>
      apply addTag_override
      · rw [Markup.Tag.isNamed_written (Declaration.isName_elementName _)]
        exact (by decide : Markup.hasLocalName "Override".toList "Default".toList = false)
      · rw [Markup.Tag.isNamed_written (Declaration.isName_elementName _)]
        exact (by decide : Markup.hasLocalName "Override".toList "Override".toList = true)
      · rw [value]
        simp [Declaration.attributes, Assignments.get?]
      · rw [value]
        simp [Declaration.attributes, Assignments.get?]

/-- A manifest with one more default for each pair, with the values as they are written. -/
def addDefaults (pairs : List (String × String)) : Manifest :=
  pairs.foldl (fun manifest pair =>
    manifest.addDefault (Markup.escaped pair.1) (Markup.escaped pair.2)) manifest

/-- A manifest with one more override for each pair, with the values as they are written. -/
def addOverrides (pairs : List (String × String)) : Manifest :=
  pairs.foldl (fun manifest pair =>
    manifest.addOverride (Markup.escaped pair.1) (Markup.escaped pair.2)) manifest

end Manifest

namespace Declarations

variable (declarations : Declarations)

/-- The manifest that is read where declarations were written. -/
def manifest : Manifest :=
  Manifest.addOverrides (Manifest.addDefaults {} declarations.defaults) declarations.overrides

/-- The root element of the manifest is well named. -/
theorem isWellNamed_element : declarations.element.IsWellNamed := by
  refine ⟨by decide, ?_, Markup.Element.areWellNamed_iff.2 ?_⟩
  · intro pair member
    obtain rfl := List.mem_singleton.1 member
    decide
  · intro element member
    obtain ⟨declaration, -, rfl⟩ := List.mem_map.1 member
    rw [Declaration.element_eq]
    exact ⟨declaration.isName_elementName, declaration.isName_attributes, trivial⟩

/-- The tags of the manifest: its root and one for each declaration. -/
theorem tags_element : declarations.element.tags
    = .written "Types" [("xmlns", Namespace.contentTypes)]
      :: declarations.entries.map fun declaration =>
          .written declaration.elementName declaration.attributes := by
  have childless : ∀ element ∈ declarations.element.children, element.children = [] := by
    intro element member
    obtain ⟨declaration, -, rfl⟩ := List.mem_map.1 member
    rw [Declaration.element_eq]
  have tags : declarations.element.tags = .written "Types" [("xmlns", Namespace.contentTypes)]
      :: Markup.Element.tagsAll declarations.element.children := rfl
  rw [tags, Markup.Element.tagsAll_of_childless childless]
  simp [element, Declaration.element_eq]

/-- The written manifest is read without a fault as the manifest of the declarations. -/
theorem parse_part (layout : Markup.Layout) :
    Manifest.parse (declarations.part layout) = .ok declarations.manifest := by
  have wellNamed := declarations.isWellNamed_element
  have root : Manifest.addTag {} (.written "Types" [("xmlns", Namespace.contentTypes)]) = {} := by
    apply Manifest.addTag_other
    · rw [Markup.Tag.isNamed_written (by decide)]
      decide
    · rw [Markup.Tag.isNamed_written (by decide)]
      decide
  rw [Manifest.parse, part, Markup.Reading.tags_document layout wellNamed,
    Markup.Reading.fault_document layout wellNamed, tags_element, List.foldl_cons, root]
  simp only [List.foldl_map, Manifest.addTag_written, entries, List.foldl_append]
  rfl

end Declarations

namespace Manifest

variable {manifest : Manifest} {pairs : List (String × String)}

theorem defaults_addDefaults : (manifest.addDefaults pairs).defaults
    = Assignments.setAll manifest.defaults (pairs.map fun pair =>
        (Markup.escaped (Text.foldAscii pair.1), Markup.escaped pair.2)) := by
  induction pairs generalizing manifest with
  | nil => rfl
  | cons pair rest ih =>
      rw [List.map_cons, Assignments.setAll_cons, ← Markup.foldAscii_escaped]
      exact ih

/-- No extension is found declared twice where each is declared once and anew. -/
theorem duplicates_addDefaults
    (distinct : (pairs.map fun pair => Text.foldAscii pair.1).Nodup)
    (new : ∀ pair ∈ pairs,
      Markup.escaped (Text.foldAscii pair.1) ∉ Assignments.keys manifest.defaults) :
    (manifest.addDefaults pairs).duplicates = manifest.duplicates := by
  induction pairs generalizing manifest with
  | nil => rfl
  | cons pair rest ih =>
      rw [List.map_cons, List.nodup_cons] at distinct
      have unknown : (manifest.defaults.get? (Text.foldAscii (Markup.escaped pair.1))).isSome
          = false := by
        rw [Bool.eq_false_iff, Markup.foldAscii_escaped, ne_eq, Assignments.get?_isSome_iff]
        exact new pair List.mem_cons_self
      have step : (manifest.addDefault (Markup.escaped pair.1) (Markup.escaped pair.2)).duplicates
          = manifest.duplicates := by
        simp only [addDefault, unknown, Bool.false_eq_true, if_false]
      refine (ih distinct.2 ?_).trans step
      intro other member taken
      rcases Assignments.mem_keys_set.1 taken with same | earlier
      · rw [Markup.foldAscii_escaped] at same
        have alike := Markup.escaped_injective same
        exact distinct.1 (alike ▸ List.mem_map_of_mem member)
      · exact new other (List.mem_cons_of_mem _ member) earlier

theorem addOverrides_frame : (manifest.addOverrides pairs).defaults = manifest.defaults ∧
    (manifest.addOverrides pairs).duplicates = manifest.duplicates := by
  induction pairs generalizing manifest with
  | nil => exact ⟨rfl, rfl⟩
  | cons pair rest ih => exact ih

theorem overrides_addOverrides : (manifest.addOverrides pairs).overrides
    = Assignments.setAll manifest.overrides (pairs.map fun pair =>
        (Markup.escaped pair.1, Markup.escaped pair.2)) := by
  induction pairs generalizing manifest with
  | nil => rfl
  | cons pair rest ih => exact ih

theorem overrides_addDefaults : (manifest.addDefaults pairs).overrides = manifest.overrides := by
  induction pairs generalizing manifest with
  | nil => rfl
  | cons pair rest ih => exact ih

end Manifest

namespace Declarations

variable {declarations : Declarations} {mime : MimeLookup}

theorem IsDistinct.duplicates_manifest (apart : declarations.IsDistinct) :
    declarations.manifest.duplicates = [] := by
  rw [manifest, Manifest.addOverrides_frame.2]
  exact Manifest.duplicates_addDefaults apart.distinct fun _ _ => List.not_mem_nil

/-- The reader finds a content type for every declared extension that is literal. -/
theorem isSome_defaults_manifest {extension : String} (literal : Markup.IsLiteral extension)
    (declared : Text.foldAscii extension ∈ declarations.extensions) :
    (declarations.manifest.defaults.get? (Text.foldAscii extension)).isSome = true := by
  obtain ⟨pair, member, same⟩ := List.mem_map.1 declared
  rw [Assignments.get?_isSome_iff, manifest, Manifest.addOverrides_frame.1,
    Manifest.defaults_addDefaults, ← Assignments.ofList_eq_setAll, Assignments.keys_ofList,
    List.mem_eraseDups, List.map_map, List.mem_map]
  refine ⟨pair, member, ?_⟩
  show Markup.escaped (Text.foldAscii pair.1) = Text.foldAscii extension
  rw [same, ← Markup.foldAscii_escaped, literal.escaped_eq]

/-- The declared content types by extension in small letters. -/
def byExtension (declarations : Declarations) : Assignments String String :=
  declarations.defaults.map fun pair => (Text.foldAscii pair.1, pair.2)

/-- Where each extension is declared once, the reader finds all of them, as they are written. -/
theorem IsDistinct.defaults_manifest (apart : declarations.IsDistinct) :
    declarations.manifest.defaults = declarations.byExtension.map fun pair =>
      (Markup.escaped pair.1, Markup.escaped pair.2) := by
  have distinct : ((declarations.defaults.map fun pair =>
      (Markup.escaped (Text.foldAscii pair.1), Markup.escaped pair.2)).map Prod.fst).Nodup := by
    have extensions := List.pairwise_map.1 apart.distinct
    rw [List.map_map]
    exact List.pairwise_map.2 (extensions.imp fun apart same =>
      apart (Markup.escaped_injective same))
  rw [manifest, Manifest.addOverrides_frame.1, Manifest.defaults_addDefaults,
    ← Assignments.ofList_eq_setAll, Assignments.ofList_of_nodup distinct, byExtension,
    List.map_map]
  rfl

/-- Where each extension is declared once, the reader finds the content type of each, both as they
are written. -/
theorem IsDistinct.get?_escaped_manifest (apart : declarations.IsDistinct) (folded : String) :
    declarations.manifest.defaults.get? (Markup.escaped folded)
      = (declarations.byExtension.get? folded).map Markup.escaped := by
  rw [apart.defaults_manifest, Assignments.get?_map Markup.escaped_injective]

theorem IsDistinct.get?_unwritten_manifest (apart : declarations.IsDistinct) {key : String}
    (unwritten : ∀ folded, Markup.escaped folded ≠ key) :
    declarations.manifest.defaults.get? key = none := by
  rw [← Option.not_isSome_iff_eq_none, Assignments.get?_isSome_iff, apart.defaults_manifest,
    Assignments.keys, List.map_map]
  intro member
  obtain ⟨pair, -, written⟩ := List.mem_map.1 member
  exact unwritten pair.1 written

/-- What was declared for an extension is what the reader finds for it. -/
theorem IsDistinct.get?_defaults_manifest (apart : declarations.IsDistinct)
    {pair : String × String} (member : pair ∈ declarations.defaults) :
    declarations.manifest.defaults.get? (Markup.escaped (Text.foldAscii pair.1))
      = some (Markup.escaped pair.2) := by
  have keys : declarations.byExtension.keys = declarations.extensions :=
    List.map_map
  have distinct := apart.distinct
  rw [← keys] at distinct
  have listed : (Text.foldAscii pair.1, pair.2) ∈ declarations.byExtension :=
    List.mem_map.2 ⟨pair, member, rfl⟩
  rw [apart.get?_escaped_manifest, Assignments.get?_of_mem distinct listed, Option.map_some]

/-- Where each part is declared once under a name that is written as it is, the reader finds the
overrides as they were declared. -/
theorem overrides_manifest_of_literal
    (literal : ∀ pair ∈ declarations.overrides,
      Markup.IsLiteral pair.1 ∧ Markup.IsLiteral pair.2)
    (distinct : declarations.overrides.keys.Nodup) :
    declarations.manifest.overrides = declarations.overrides := by
  have written : declarations.overrides.map (fun pair =>
      (Markup.escaped pair.1, Markup.escaped pair.2)) = declarations.overrides := by
    refine (List.map_congr_left ?_).trans (List.map_id _)
    intro pair member
    rw [(literal pair member).1.escaped_eq, (literal pair member).2.escaped_eq]
    rfl
  rw [manifest, Manifest.overrides_addOverrides, Manifest.overrides_addDefaults, written,
    ← Assignments.ofList_eq_setAll]
  exact Assignments.ofList_of_nodup distinct

theorem mem_keys_overrides_manifest {partName : String} :
    partName ∈ declarations.manifest.overrides.keys ↔
      ∃ declared ∈ declarations.overrides.keys, partName = Markup.escaped declared := by
  rw [manifest, Manifest.overrides_addOverrides, Manifest.overrides_addDefaults,
    ← Assignments.ofList_eq_setAll, Assignments.keys_ofList, List.mem_eraseDups, List.map_map,
    Assignments.keys]
  simp [eq_comm]

end Declarations

end WordPackage
