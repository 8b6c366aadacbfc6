import Mathlib.Data.List.Forall2
import WordPackage.Proofs.Assignments
import WordPackage.Proofs.Markup.Name
import WordPackage.Proofs.Markup.WrittenDocument

/-!
# Trees that read back

Elements are built from names by assigning attributes, setting texts and appending
children. When the names are names of XML, each element of the tree has a proper tag, and
the document is read back as the tree: one tag for each element in document order, with
its name and its attributes, whatever the layout.
-/

namespace WordPackage.Markup

namespace Element

mutual

/-- The elements of a tree, each before its children. -/
def preorder : Element → List Element
  | ⟨name, attributes, text, children⟩ =>
      ⟨name, attributes, text, children⟩ :: preorderAll children

/-- The elements of trees side by side. -/
def preorderAll : List Element → List Element
  | [] => []
  | element :: rest => element.preorder ++ preorderAll rest

end

theorem mem_preorderAll_iff {inner : Element} {elements : List Element} :
    inner ∈ preorderAll elements ↔ ∃ element ∈ elements, inner ∈ element.preorder := by
  induction elements with
  | nil => simp [preorderAll]
  | cons element rest ih => simp [preorderAll, ih]

theorem mem_preorder_iff {inner element : Element} :
    inner ∈ element.preorder ↔
      inner = element ∨ ∃ child ∈ element.children, inner ∈ child.preorder := by
  obtain ⟨name, attributes, text, children⟩ := element
  rw [preorder, List.mem_cons, mem_preorderAll_iff]

/-- What holds throughout a tree holds of its root and throughout the trees of its children. -/
theorem forall_mem_preorder_iff {holds : Element → Prop} {element : Element} :
    (∀ inner ∈ element.preorder, holds inner) ↔
      holds element ∧ ∀ child ∈ element.children, ∀ inner ∈ child.preorder, holds inner := by
  constructor
  · intro all
    refine ⟨all element (mem_preorder_iff.2 (.inl rfl)), ?_⟩
    intro child member inner below
    exact all inner (mem_preorder_iff.2 (.inr ⟨child, member, below⟩))
  · rintro ⟨root, children⟩ inner member
    rcases mem_preorder_iff.1 member with rfl | ⟨child, held, below⟩
    · exact root
    · exact children child held inner below

/-- Whether the tag of an element is proper: its name and its keys are names of XML, and no key
comes twice. -/
structure HasProperTag (element : Element) : Prop where
  name : IsXmlName element.name
  keys : ∀ key ∈ element.attributes.keys, IsXmlName key
  distinct : element.attributes.keys.Nodup

instance (element : Element) : Decidable element.HasProperTag :=
  decidable_of_iff (IsXmlName element.name ∧ (∀ key ∈ element.attributes.keys, IsXmlName key) ∧
      element.attributes.keys.Nodup)
    ⟨fun ⟨name, keys, distinct⟩ => ⟨name, keys, distinct⟩,
      fun tag => ⟨tag.name, tag.keys, tag.distinct⟩⟩

/-- Whether every element of a tree has a proper tag. -/
def IsProper (element : Element) : Prop :=
  ∀ inner ∈ element.preorder, inner.HasProperTag

theorem isProper_iff {element : Element} :
    element.IsProper ↔ element.HasProperTag ∧ ∀ child ∈ element.children, child.IsProper :=
  forall_mem_preorder_iff

mutual

theorem IsProper.isWellNamed : ∀ {element : Element}, element.IsProper → element.IsWellNamed
  | ⟨name, attributes, text, children⟩, proper => by
      obtain ⟨tag, below⟩ := isProper_iff.1 proper
      refine ⟨tag.name.isName, ?_, IsProper.areWellNamed below⟩
      intro pair member
      exact (tag.keys pair.1 (List.mem_map_of_mem member)).isName

/-- The names of proper trees are readable. -/
theorem IsProper.areWellNamed : ∀ {elements : List Element},
    (∀ element ∈ elements, element.IsProper) → AreWellNamed elements
  | [], _ => trivial
  | element :: _, proper =>
      ⟨IsProper.isWellNamed (proper element List.mem_cons_self),
        IsProper.areWellNamed fun other member => proper other (List.mem_cons_of_mem _ member)⟩

end

/-- How elements are built: from a name, by assigning attributes, setting the text and appending
children. Names of elements and keys of attributes are names of XML; texts and values are
arbitrary. -/
inductive IsBuilt : Element → Prop where
  | new {name : String} (isName : IsXmlName name) : IsBuilt { name }
  | setAttribute {element : Element} {key : String} (value : String) (built : IsBuilt element)
      (isName : IsXmlName key) : IsBuilt (element.setAttribute key value)
  | withText {element : Element} (text : String) (built : IsBuilt element) :
      IsBuilt (element.withText text)
  | pushChild {element child : Element} (built : IsBuilt element) (builtChild : IsBuilt child) :
      IsBuilt (element.pushChild child)

/-- What was built is proper. -/
theorem IsBuilt.isProper {element : Element} (built : element.IsBuilt) : element.IsProper := by
  induction built with
  | new isName =>
      refine isProper_iff.2 ⟨⟨isName, ?_, List.nodup_nil⟩, ?_⟩
      · exact fun _ member => nomatch member
      · exact fun _ member => nomatch member
  | @setAttribute element key value _ isName proper =>
      obtain ⟨tag, children⟩ := isProper_iff.1 proper
      refine isProper_iff.2 ⟨⟨tag.name, ?_, Assignments.nodup_keys_set tag.distinct key value⟩,
        children⟩
      intro other member
      rcases Assignments.mem_keys_set.1 member with rfl | earlier
      · exact isName
      · exact tag.keys other earlier
  | withText text _ proper =>
      obtain ⟨tag, children⟩ := isProper_iff.1 proper
      exact isProper_iff.2 ⟨⟨tag.name, tag.keys, tag.distinct⟩, children⟩
  | pushChild _ _ proper properChild =>
      obtain ⟨tag, children⟩ := isProper_iff.1 proper
      refine isProper_iff.2 ⟨⟨tag.name, tag.keys, tag.distinct⟩, ?_⟩
      intro child member
      rcases List.mem_append.1 member with earlier | last
      · exact children child earlier
      · exact List.mem_singleton.1 last ▸ properChild

/-- The event with which an element begins. -/
def opening (element : Element) : Event :=
  if element.text.isNone && element.children.isEmpty then
    .empty (.written element.name element.attributes)
  else .start (.written element.name element.attributes)

theorem filter_tag?_textEvents (chars : List Char) :
    (textEvents chars).filter (fun event => event.tag?.isSome) = [] := by
  unfold textEvents
  split
  · rfl
  · rfl

mutual

/-- The tags among the events of a tree are those with which its elements begin. -/
theorem filter_tag?_events : ∀ element : Element,
    element.events.filter (fun event => event.tag?.isSome) = element.preorder.map opening
  | ⟨name, attributes, text, children⟩ => by
      have texts : (text.toList.flatMap fun shown => textEvents (escape shown.toList)).filter
          (fun event => event.tag?.isSome) = [] := by
        cases text with
        | none => rfl
        | some shown => simpa using filter_tag?_textEvents (escape shown.toList)
      rw [events, preorder, List.map_cons, opening]
      split
      · rename_i leaf
        obtain rfl : children = [] := by
          simpa using (Bool.and_eq_true_iff.1 leaf).2
        rfl
      · rw [List.cons_append, List.cons_append, List.filter_cons_of_pos rfl, List.filter_append,
          List.filter_append, texts, filter_tag?_eventsAll children, List.nil_append]
        exact congrArg _ (List.append_nil _)

/-- The tags among the events of trees side by side are those with which their elements begin. -/
theorem filter_tag?_eventsAll : ∀ elements : List Element,
    (eventsAll elements).filter (fun event => event.tag?.isSome)
      = (preorderAll elements).map opening
  | [] => rfl
  | element :: rest => by
      rw [eventsAll, List.filter_append, filter_tag?_events element, filter_tag?_eventsAll rest,
        preorderAll, List.map_append]

end

end Element

/-- Whether a tag is read as that of an element: it has the name of the element, and each
attribute of the element once, in order and without a fault, with its value as it is written. -/
structure Tag.Shows (tag : Tag) (element : Element) : Prop where
  name : tag.name = element.name.toList
  attributes : tag.attributes
    = element.attributes.map fun pair => .ok ⟨pair.1, escaped pair.2⟩
  distinct : element.attributes.keys.Nodup
  values : ∀ key, tag.attribute? key = (element.attribute? key).map escaped

/-- Whether an event is that with which an element begins: an empty tag if the element has neither
a text nor children, else a start tag. -/
def Event.Opens (event : Event) (element : Element) : Prop :=
  ∃ tag : Tag, tag.Shows element ∧
    event = if element.text = none ∧ element.children = [] then .empty tag else .start tag

namespace Element

theorem HasProperTag.shows {element : Element} (proper : element.HasProperTag) :
    (Tag.written element.name element.attributes).Shows element := by
  have keys : ∀ pair ∈ element.attributes, IsName pair.1.toList := fun pair member =>
    (proper.keys pair.1 (List.mem_map_of_mem member)).isName
  exact ⟨Tag.name_written proper.name.isName,
    Tag.attributes_written proper.name.isName keys proper.distinct, proper.distinct,
    Tag.attribute?_written proper.name.isName keys proper.distinct⟩

theorem HasProperTag.opens {element : Element} (proper : element.HasProperTag) :
    element.opening.Opens element := by
  refine ⟨_, proper.shows, ?_⟩
  simp only [opening, Bool.and_eq_true, Option.isNone_iff_eq_none, List.isEmpty_iff]

theorem IsProper.forall₂_opens {element : Element} (proper : element.IsProper) :
    List.Forall₂ (fun inner event => Event.Opens event inner) element.preorder
      (element.events.filter fun event => event.tag?.isSome) := by
  rw [filter_tag?_events, List.forall₂_map_right_iff, List.forall₂_same]
  intro inner member
  exact (proper inner member).opens

/-- A tree that was built from names of XML is read back without a fault from its document: its
elements begin one after another in document order, each with its name and its attributes, and all
that is read is the same in either layout. -/
theorem document_reads_back {element : Element} (built : element.IsBuilt) (layout : Layout) :
    (Reading.ofText (element.document layout)).fault = none ∧
      List.Forall₂ (fun inner event => Event.Opens event inner) element.preorder
        ((Reading.ofText (element.document layout)).events.filter
          fun event => event.tag?.isSome) ∧
      ∀ other : Layout, (Reading.ofText (element.document other)).events
        = (Reading.ofText (element.document layout)).events := by
  have wellNamed := built.isProper.isWellNamed
  refine ⟨Reading.fault_document layout wellNamed, ?_, ?_⟩
  · rw [Reading.ofText_document layout wellNamed]
    exact built.isProper.forall₂_opens
  · intro other
    rw [Reading.ofText_document layout wellNamed, Reading.ofText_document other wellNamed]

/-- Each of the five characters is written as its entity. -/
example : escaped "<a b='&'>\"" = "&lt;a b=&apos;&amp;&apos;&gt;&quot;" := by decide

/-- A paragraph with a text beside a child, whose attribute was assigned twice and holds marks. -/
def sample : Element :=
  (((({ name := "w:p" } : Element).setAttribute "w:val" "a").withText " ").setAttribute
    "w:val" "\"<'").pushChild { name := "w:r" }

/-- The sample is read back from its indented document. -/
theorem sample_reads_back :
    (Reading.ofText (sample.document .indented)).fault = none ∧
      List.Forall₂ (fun inner event => Event.Opens event inner) sample.preorder
        ((Reading.ofText (sample.document .indented)).events.filter
          fun event => event.tag?.isSome) ∧
      ∀ other : Layout, (Reading.ofText (sample.document other)).events
        = (Reading.ofText (sample.document .indented)).events := by
  have built : sample.IsBuilt :=
    .pushChild (.setAttribute _ (.withText _ (.setAttribute _ (.new (by decide)) (by decide)))
      (by decide)) (.new (by decide))
  exact document_reads_back built .indented

end Element

end WordPackage.Markup
