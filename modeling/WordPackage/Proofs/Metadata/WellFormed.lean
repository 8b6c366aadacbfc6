import WordPackage.Metadata.PropertyWriter
import WordPackage.Proofs.Markup.WellFormed
import WordPackage.Proofs.Metadata.Properties

/-!
# Well-formed property documents

Both property documents have the shape of a document whatever a record holds. They are
well formed exactly if no text that goes into them has a character that no document may
have; nothing removes such a character or replaces it.
-/

namespace WordPackage

open Markup (IsXmlText IsXmlName isXmlChar)

theorem Markup.isXmlChar_of_isDigit {char : Char} (digit : char.isDigit = true) :
    isXmlChar char = true := by
  have code : 48 ≤ char.toNat ∧ char.toNat ≤ 57 := by
    simpa [Char.isDigit, UInt32.le_iff_toNat_le] using digit
  have named : Markup.inRanges Markup.nameRanges char = true :=
    List.any_eq_true.2 ⟨(0x30, 0x39), by decide, by simpa using code⟩
  exact Markup.isXmlChar_of_inRanges named

namespace Text

theorem forall_isXmlChar_padded (digits number : Nat) :
    ∀ char ∈ padded digits number, isXmlChar char = true := by
  intro char member
  rcases List.mem_append.1 member with zero | digit
  · rw [List.eq_of_mem_replicate zero]
    decide
  · exact Markup.isXmlChar_of_isDigit (Nat.isDigit_of_mem_toDigits (by decide) (by decide) digit)

/-- What holds of the characters of a separator holds of joined texts exactly if it holds of each
of them. -/
theorem forall_mem_intercalate_iff {holds : Char → Prop} {separator : List Char}
    (separates : ∀ char ∈ separator, holds char) : ∀ pieces : List (List Char),
    (∀ char ∈ separator.intercalate pieces, holds char)
      ↔ ∀ piece ∈ pieces, ∀ char ∈ piece, holds char
  | [] => by simp [List.intercalate]
  | [piece] => by simp [List.intercalate]
  | piece :: next :: rest => by
      have ih := forall_mem_intercalate_iff separates (next :: rest)
      have joined : separator.intercalate (piece :: next :: rest)
          = piece ++ (separator ++ separator.intercalate (next :: rest)) := by
        simp [List.intercalate, List.intersperse_cons_cons]
      rw [joined, List.forall_mem_append, List.forall_mem_append, ih,
        List.forall_mem_cons (a := piece)]
      exact ⟨fun all => ⟨all.1, all.2.2⟩, fun all => ⟨all.1, separates, all.2⟩⟩

end Text

theorem isXmlText_intercalate_iff (texts : List String) :
    IsXmlText (", ".intercalate texts) ↔ ∀ text ∈ texts, IsXmlText text := by
  have separates : IsXmlText ", " := by decide
  rw [IsXmlText, String.toList_intercalate, Text.forall_mem_intercalate_iff separates,
    List.forall_mem_map]
  rfl

/-- An instant may stand in a document. -/
theorem Instant.isXmlText_w3cdtf (instant : Instant) : IsXmlText instant.w3cdtf := by
  have year : ∀ year : Int, ∀ char ∈ CivilDate.yearText year, isXmlChar char = true := by
    intro year
    unfold CivilDate.yearText
    split
    · exact Text.forall_isXmlChar_padded _ _
    · refine List.forall_mem_cons.2 ⟨?_, Text.forall_isXmlChar_padded _ _⟩
      split
      · decide
      · decide
  have behind : ∀ mark, isXmlChar mark = true → ∀ number,
      ∀ char ∈ mark :: Text.padded 2 number, isXmlChar char = true :=
    fun _ allowed number => List.forall_mem_cons.2 ⟨allowed, Text.forall_isXmlChar_padded 2 number⟩
  have dash := behind '-' (by decide)
  have clock := behind 'T' (by decide)
  have colon := behind ':' (by decide)
  simp only [IsXmlText, w3cdtf, String.toList_ofList, CivilDate.text, List.forall_mem_append]
  exact ⟨⟨⟨⟨⟨⟨year _, dash _⟩, dash _⟩, clock _⟩, colon _⟩, colon _⟩,
    List.forall_mem_singleton.2 (by decide)⟩

theorem isXmlText_applicationVersionText (version : String) :
    IsXmlText (applicationVersionText version) := by
  rw [IsXmlText, applicationVersionText, String.toList_ofList, List.forall_mem_append,
    List.forall_mem_cons]
  exact ⟨Text.forall_isXmlChar_padded _ _, by decide, Text.forall_isXmlChar_padded _ _⟩

namespace Properties

/-- Properties of different new names are appended one after another. -/
theorem root_foldl_setElement {properties : Properties} {elements : List Markup.Element}
    (distinct : (properties.root.children.map (·.name) ++ elements.map (·.name)).Nodup) :
    (elements.foldl setElement properties).root
      = { properties.root with children := properties.root.children ++ elements } := by
  obtain ⟨-, own, apart⟩ := List.nodup_append.1 distinct
  have others : properties.root.children.filter (fun child => child.name ∉ elements.map (·.name))
      = properties.root.children := by
    apply List.filter_eq_self.2
    intro child member
    apply decide_eq_true
    intro replaced
    exact apart child.name (List.mem_map_of_mem member) child.name replaced rfl
  rw [root_foldl_setElement_of_nodup own, others]

/-- A document in which proper properties of different names were set is a document, and well formed
exactly if the properties have only characters of a document. -/
theorem isWellFormed_foldl_setElement_iff {properties : Properties}
    {elements : List Markup.Element} (tag : properties.root.HasProperTag)
    (texts : properties.root.HasXmlText) (empty : properties.root.children = [])
    (distinct : (elements.map (·.name)).Nodup) (proper : ∀ element ∈ elements, element.IsProper)
    (layout : Markup.Layout) :
    Markup.IsDocument ((elements.foldl setElement properties).part layout) ∧
      (Markup.IsWellFormed ((elements.foldl setElement properties).part layout) ↔
        ∀ element ∈ elements, ∀ inner ∈ element.preorder, inner.HasXmlText) := by
  have root : (elements.foldl setElement properties).root
      = { properties.root with children := elements } := by
    have names : (properties.root.children.map (·.name) ++ elements.map (·.name)).Nodup := by
      rw [empty]
      exact distinct
    rw [root_foldl_setElement names, empty, List.nil_append]
  have whole : (elements.foldl setElement properties).root.IsProper := by
    rw [root]
    exact Markup.Element.isProper_iff.2 ⟨⟨tag.name, tag.keys, tag.distinct⟩, proper⟩
  refine ⟨whole.isDocument layout, ?_⟩
  rw [part, whole.isWellFormed_iff, Markup.Element.forall_mem_preorder_iff, root]
  exact and_iff_right ⟨texts.text, texts.values⟩

theorem isProper_textElement {property : String × String} (isName : IsXmlName property.1) :
    (textElement property).IsProper :=
  Markup.Element.isProper_iff.2 ⟨⟨isName, fun _ none => (nomatch none), List.nodup_nil⟩,
    fun _ none => nomatch none⟩

/-- The only text in a property with a text is that text. -/
theorem forall_hasXmlText_textElement_iff {property : String × String} :
    (∀ inner ∈ (textElement property).preorder, inner.HasXmlText) ↔ IsXmlText property.2 := by
  rw [Markup.Element.forall_mem_preorder_iff]
  constructor
  · rintro ⟨own, -⟩
    exact own.text property.2 rfl
  · intro allowed
    refine ⟨⟨?_, fun _ none => nomatch none⟩, fun _ none => nomatch none⟩
    rintro text ⟨⟩
    exact allowed

theorem sublist_names_optional (name : String) (given : Option String)
    (shown : String → String) :
    ((given.map fun text => (name, shown text)).toList.map Prod.fst).Sublist [name] := by
  cases given with
  | none => exact List.nil_sublist _
  | some text => exact List.Sublist.refl _

/-- A property that is only set if there is a text, not an empty one, holds that text. -/
theorem forall_isXmlText_optional_iff (name : String) (given : Option String) :
    (∀ property ∈ ((given.filter (· ≠ "")).map fun text => (name, text)).toList,
      IsXmlText property.2) ↔ ∀ text ∈ given, IsXmlText text := by
  cases given with
  | none => simp
  | some text =>
      by_cases empty : text = ""
      · subst empty
        simp [IsXmlText]
      · simp [empty]

end Properties

namespace PropertyWriter

variable (writer : PropertyWriter) (record : MetadataRecord) (now : Instant)

theorem attributes_instantProperty (name : String) (instant : Instant) :
    (instantProperty name instant).attributes = [("xsi:type", "dcterms:W3CDTF")] := rfl

theorem isProper_instantProperty {name : String} (isName : IsXmlName name) (instant : Instant) :
    (instantProperty name instant).IsProper := by
  refine Markup.Element.isProper_iff.2 ⟨⟨isName, ?_, ?_⟩, fun _ none => nomatch none⟩
  · rw [attributes_instantProperty]
    decide
  · rw [attributes_instantProperty]
    exact List.pairwise_singleton _ _

/-- A property with an instant may stand in a document. -/
theorem forall_hasXmlText_instantProperty (name : String) (instant : Instant) :
    ∀ inner ∈ (instantProperty name instant).preorder, inner.HasXmlText := by
  refine Markup.Element.forall_mem_preorder_iff.2 ⟨⟨?_, ?_⟩, fun _ none => nomatch none⟩
  · have shown : (instantProperty name instant).text = some instant.w3cdtf := rfl
    intro text member
    rw [shown, Option.mem_some_iff] at member
    exact member ▸ instant.isXmlText_w3cdtf
  · rw [attributes_instantProperty]
    decide

/-- The core properties of a record as elements, in their order. -/
def coreElements : List Markup.Element :=
  [Properties.textElement ("cp:revision", "1"),
    Properties.textElement ("cp:lastModifiedBy", writer.lastModifiedBy),
    instantProperty "dcterms:created" now, instantProperty "dcterms:modified" now]
    ++ (writer.recordProperties record).map Properties.textElement

theorem coreProperties_eq : writer.coreProperties record now
    = (writer.coreElements record now).foldl Properties.setElement Properties.core := by
  rw [coreElements, List.foldl_append, List.foldl_map]
  rfl

/-- Records set at most five properties, in this order. -/
theorem sublist_names_recordProperties :
    ((writer.recordProperties record).map Prod.fst).Sublist
      ["dc:title", "dc:creator", "cp:keywords", "dc:description", "dc:language"] := by
  have keywords : ((if record.tags.toList.isEmpty then []
      else [("cp:keywords", ", ".intercalate record.tags.toList)]).map Prod.fst).Sublist
        ["cp:keywords"] := by
    split
    · exact List.nil_sublist _
    · exact List.Sublist.refl _
  rw [recordProperties, List.map_append, List.map_append, List.map_append]
  exact (((List.Sublist.refl ["dc:title", "dc:creator"]).append keywords).append
    (Properties.sublist_names_optional "dc:description" _ id)).append
      (Properties.sublist_names_optional "dc:language" _ _)

/-- Whether the texts that go into the core properties of a record have only characters of a
document. -/
structure HasXmlCoreTexts : Prop where
  lastModifiedBy : IsXmlText writer.lastModifiedBy
  title : IsXmlText record.title
  authors : IsXmlText (writer.authors record.authors)
  tags : ∀ tag ∈ record.tags.toList, IsXmlText tag
  comments : ∀ comments ∈ record.comments, IsXmlText comments
  language : ∀ tag ∈ record.languages.head?, IsXmlText (writer.languages.languageValue tag)

/-- Besides the last editor these are the texts of the properties that a record sets. -/
theorem hasXmlCoreTexts_iff : writer.HasXmlCoreTexts record ↔
    IsXmlText writer.lastModifiedBy ∧
      ∀ property ∈ writer.recordProperties record, IsXmlText property.2 := by
  have keywords : (∀ property ∈ (if record.tags.toList.isEmpty then []
      else [("cp:keywords", ", ".intercalate record.tags.toList)]), IsXmlText property.2)
        ↔ ∀ tag ∈ record.tags.toList, IsXmlText tag := by
    split
    · rename_i untagged
      rw [List.isEmpty_iff.1 untagged]
      exact iff_of_true (fun _ none => nomatch none) (fun _ none => nomatch none)
    · rw [List.forall_mem_singleton, isXmlText_intercalate_iff]
  have description := Properties.forall_isXmlText_optional_iff "dc:description" record.comments
  have language : (∀ property ∈ (record.languages.head?.map fun tag =>
      ("dc:language", writer.languages.languageValue tag)).toList, IsXmlText property.2)
        ↔ ∀ tag ∈ record.languages.head?, IsXmlText (writer.languages.languageValue tag) := by
    cases record.languages.head? with
    | none => simp
    | some tag => simp
  rw [recordProperties, List.forall_mem_append, List.forall_mem_append, List.forall_mem_append,
    keywords, description, language, List.forall_mem_cons, List.forall_mem_singleton]
  constructor
  · rintro ⟨editor, title, authors, tags, comments, language⟩
    exact ⟨editor, ⟨⟨⟨title, authors⟩, tags⟩, comments⟩, language⟩
  · rintro ⟨editor, ⟨⟨⟨title, authors⟩, tags⟩, comments⟩, language⟩
    exact ⟨editor, title, authors, tags, comments, language⟩

/-- The core properties of a record have different names, all of them names of XML. -/
theorem names_coreElements :
    ((writer.coreElements record now).map (·.name)).Nodup ∧
      ∀ element ∈ writer.coreElements record now, IsXmlName element.name := by
  have listed : ((writer.coreElements record now).map (·.name)).Sublist
      (["cp:revision", "cp:lastModifiedBy", "dcterms:created", "dcterms:modified"]
        ++ ["dc:title", "dc:creator", "cp:keywords", "dc:description", "dc:language"]) := by
    rw [coreElements, List.map_append, List.map_map]
    exact (List.Sublist.refl _).append (writer.sublist_names_recordProperties record)
  have names : ∀ name ∈ ["cp:revision", "cp:lastModifiedBy", "dcterms:created",
      "dcterms:modified"] ++ ["dc:title", "dc:creator", "cp:keywords", "dc:description",
        "dc:language"], IsXmlName name := by decide
  refine ⟨listed.nodup (by decide), ?_⟩
  intro element member
  exact names _ (listed.subset (List.mem_map_of_mem member))

/-- The core properties of a record are proper elements. -/
theorem isProper_coreElements : ∀ element ∈ writer.coreElements record now, element.IsProper := by
  intro element member
  have isName := (writer.names_coreElements record now).2 element member
  rcases List.mem_append.1 member with own | ofRecord
  · simp only [List.mem_cons, List.not_mem_nil, or_false] at own
    rcases own with rfl | rfl | rfl | rfl
    · exact Properties.isProper_textElement isName
    · exact Properties.isProper_textElement isName
    · exact isProper_instantProperty isName now
    · exact isProper_instantProperty isName now
  · obtain ⟨property, -, rfl⟩ := List.mem_map.1 ofRecord
    exact Properties.isProper_textElement isName

/-- The core properties of a record are a document, and a well-formed one exactly if the texts that
go into it have only characters of a document. -/
theorem isWellFormed_coreProperties_iff (layout : Markup.Layout) :
    Markup.IsDocument ((writer.coreProperties record now).part layout) ∧
      (Markup.IsWellFormed ((writer.coreProperties record now).part layout)
        ↔ writer.HasXmlCoreTexts record) := by
  have tag : Properties.core.root.HasProperTag := by decide
  have texts : Properties.core.root.HasXmlText := by
    refine ⟨fun _ none => (nomatch none), ?_⟩
    have listed : Properties.core.root.attributes = [("xmlns:cp", Namespace.coreProperties),
        ("xmlns:dc", Namespace.dublinCore), ("xmlns:dcterms", Namespace.dublinCoreTerms),
        ("xmlns:xsi", Namespace.schemaInstance)] := rfl
    simp only [listed, List.forall_mem_cons]
    exact ⟨.of_spelled rfl (by decide), .of_spelled rfl (by decide), .of_spelled rfl (by decide),
      .of_spelled rfl (by decide), fun _ none => nomatch none⟩
  have wellFormed := Properties.isWellFormed_foldl_setElement_iff tag texts rfl
    (writer.names_coreElements record now).1 (writer.isProper_coreElements record now) layout
  have one : IsXmlText "1" := by decide
  have created := forall_hasXmlText_instantProperty "dcterms:created" now
  have modified := forall_hasXmlText_instantProperty "dcterms:modified" now
  rw [coreProperties_eq, hasXmlCoreTexts_iff]
  refine ⟨wellFormed.1, wellFormed.2.trans ?_⟩
  rw [coreElements, List.forall_mem_append, List.forall_mem_map]
  simp only [List.forall_mem_cons, Properties.forall_hasXmlText_textElement_iff]
  exact ⟨fun all => ⟨all.1.2.1, all.2⟩,
    fun all => ⟨⟨one, all.1, created, modified, fun _ none => nomatch none⟩, all.2⟩⟩

/-- The extended properties of a record, in their order. -/
def applicationProperties : List (String × String) :=
  [("Application", writer.applicationName),
    ("AppVersion", applicationVersionText writer.applicationVersion), ("DocSecurity", "0"),
    ("HyperlinksChanged", "false"), ("LinksUpToDate", "true"), ("ScaleCrop", "false"),
    ("SharedDoc", "false")]
    ++ ((record.publisher.filter (· ≠ "")).map fun publisher => ("Company", publisher)).toList

theorem extendedProperties_eq : writer.extendedProperties record
    = ((writer.applicationProperties record).map Properties.textElement).foldl
        Properties.setElement Properties.extended := by
  rw [applicationProperties, List.foldl_map, List.foldl_append, extendedProperties]
  cases record.publisher.filter (· ≠ "") with
  | none => rfl
  | some publisher => rfl

/-- Whether the texts that go into the extended properties of a record have only characters of a
document. -/
structure HasXmlApplicationTexts : Prop where
  applicationName : IsXmlText writer.applicationName
  publisher : ∀ publisher ∈ record.publisher, IsXmlText publisher

/-- The extended properties of a record have different names, all of them names of XML. -/
theorem names_applicationProperties :
    ((writer.applicationProperties record).map Prod.fst).Nodup ∧
      ∀ property ∈ writer.applicationProperties record, IsXmlName property.1 := by
  have listed : ((writer.applicationProperties record).map Prod.fst).Sublist
      (["Application", "AppVersion", "DocSecurity", "HyperlinksChanged", "LinksUpToDate",
        "ScaleCrop", "SharedDoc"] ++ ["Company"]) := by
    rw [applicationProperties, List.map_append]
    exact (List.Sublist.refl _).append (Properties.sublist_names_optional "Company" _ id)
  have names : ∀ name ∈ ["Application", "AppVersion", "DocSecurity", "HyperlinksChanged",
      "LinksUpToDate", "ScaleCrop", "SharedDoc"] ++ ["Company"], IsXmlName name := by decide
  refine ⟨listed.nodup (by decide), ?_⟩
  intro property member
  exact names _ (listed.subset (List.mem_map_of_mem member))

/-- Besides the name of the application the publisher is the only text of a record among the
extended properties. -/
theorem hasXmlApplicationTexts_iff : writer.HasXmlApplicationTexts record ↔
    ∀ property ∈ writer.applicationProperties record, IsXmlText property.2 := by
  have company := Properties.forall_isXmlText_optional_iff "Company" record.publisher
  have version := isXmlText_applicationVersionText writer.applicationVersion
  have fixed : IsXmlText "0" ∧ IsXmlText "false" ∧ IsXmlText "true" := by decide
  rw [applicationProperties, List.forall_mem_append, company]
  simp only [List.forall_mem_cons]
  constructor
  · rintro ⟨application, publisher⟩
    exact ⟨⟨application, version, fixed.1, fixed.2.1, fixed.2.2, fixed.2.1, fixed.2.1,
      fun _ none => nomatch none⟩, publisher⟩
  · rintro ⟨⟨application, -⟩, publisher⟩
    exact ⟨application, publisher⟩

/-- The extended properties of a record are a document, and a well-formed one exactly if the texts
that go into it have only characters of a document. -/
theorem isWellFormed_extendedProperties_iff (layout : Markup.Layout) :
    Markup.IsDocument ((writer.extendedProperties record).part layout) ∧
      (Markup.IsWellFormed ((writer.extendedProperties record).part layout)
        ↔ writer.HasXmlApplicationTexts record) := by
  have tag : Properties.extended.root.HasProperTag := by decide
  have texts : Properties.extended.root.HasXmlText := by
    refine ⟨fun _ none => (nomatch none), ?_⟩
    have listed : Properties.extended.root.attributes
        = [("xmlns", Namespace.extendedProperties)] := rfl
    rw [listed, List.forall_mem_singleton]
    exact .of_spelled rfl (by decide)
  obtain ⟨distinct, names⟩ := writer.names_applicationProperties record
  have distinct' : (((writer.applicationProperties record).map Properties.textElement).map
      (·.name)).Nodup := by
    rw [List.map_map]
    exact distinct
  have proper : ∀ element ∈ (writer.applicationProperties record).map Properties.textElement,
      element.IsProper :=
    List.forall_mem_map.2 fun property member =>
      Properties.isProper_textElement (names property member)
  have wellFormed := Properties.isWellFormed_foldl_setElement_iff tag texts rfl distinct' proper
    layout
  rw [extendedProperties_eq, hasXmlApplicationTexts_iff]
  refine ⟨wellFormed.1, wellFormed.2.trans ?_⟩
  simp only [List.forall_mem_map, Properties.forall_hasXmlText_textElement_iff]

/-- Whatever a record, its writer and the instant are, both property parts have the shape of a
document: one declaration and one element with balanced tags, distinct attributes and nothing that
looks like markup in texts and values. They are well formed exactly if the texts that go into them
have only characters of a document; others are written as they are. -/
theorem parts_areDocuments_and_isWellFormed_iff :
    (Markup.IsDocument (writer.parts record now).1 ∧
      Markup.IsDocument (writer.parts record now).2) ∧
      (Markup.IsWellFormed (writer.parts record now).1 ↔ writer.HasXmlCoreTexts record) ∧
      (Markup.IsWellFormed (writer.parts record now).2 ↔ writer.HasXmlApplicationTexts record) := by
  have core := writer.isWellFormed_coreProperties_iff record now writer.layout
  have extended := writer.isWellFormed_extendedProperties_iff record writer.layout
  exact ⟨⟨core.1, extended.1⟩, core.2, extended.2⟩

/-- The core properties of a title with a control character are no well-formed document. -/
theorem not_isWellFormed_control :
    ¬Markup.IsWellFormed ((ofSettings {}).parts { title := "a\x01" } ⟨0, 0⟩).1 := by
  intro wellFormed
  have texts := ((ofSettings {}).isWellFormed_coreProperties_iff { title := "a\x01" } ⟨0, 0⟩
    (ofSettings {}).layout).2.1 wellFormed
  exact absurd texts.title (by decide)

end PropertyWriter

end WordPackage
