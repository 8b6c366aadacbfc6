import Mathlib.Data.List.TakeDrop
import WordPackage.Proofs.Markup.Cut
import WordPackage.Proofs.Relationship.RoundTrip

/-!
# Relationship parts that are cut off

A relationship part that is cut off inside a tag is not read. Cut off elsewhere it is read as the
relationships before the cut, since an element that is still open is no fault: what is missing
behind the cut is missing without notice. So a cut goes unnoticed exactly where it is made
between tags and before the last relationship.
-/

namespace WordPackage

theorem RelationshipKey.element_eq (key : RelationshipKey) (id : String) :
    key.element id = ⟨"Relationship", key.attributes id, none, []⟩ := by
  unfold element attributes
  cases key.mode <;> rfl

namespace Registry

variable (registry : Registry)

/-- A relationship part that was cut off: as many characters of its beginning as are given, or all
of them. -/
def cutPart (layout : Markup.Layout) (length : Nat) : String :=
  .ofList ((registry.part layout).toList.take length)

@[simp] theorem toList_cutPart (layout : Markup.Layout) (length : Nat) :
    (registry.cutPart layout length).toList = (registry.part layout).toList.take length :=
  String.toList_ofList

theorem cutPart_begins (layout : Markup.Layout) (length : Nat) :
    (registry.cutPart layout length).toList <+: (registry.part layout).toList := by
  rw [toList_cutPart]
  exact List.take_prefix _ _

/-- The markup of relationships is one empty tag for each. -/
theorem markupAll_entries (entries : List (String × RelationshipKey)) :
    Markup.Element.markupAll (entries.map fun (id, key) => key.element id) =
      (entries.map fun entry => Markup.Tag.written "Relationship"
        (entry.2.attributes entry.1)).map .empty := by
  induction entries with
  | nil => rfl
  | cons entry rest ih =>
      obtain ⟨id, key⟩ := entry
      rw [List.map_cons, Markup.Element.markupAll, ih]
      show (key.element id).markup ++ _ = _
      rw [RelationshipKey.element_eq]
      rfl

/-- An end tag adds nothing to the first tags. -/
theorem filterMap_tag?_take (tags : List Markup.Tag) (name : List Char) (number : Nat) :
    ((tags.map Markup.Event.empty ++ [Markup.Event.finish name]).take number).filterMap
      Markup.Event.tag? = tags.take number := by
  have own : (tags.take number).filterMap (Markup.Event.tag? ∘ Markup.Event.empty) =
      tags.take number := List.filterMap_some
  have none : ([Markup.Event.finish name].take (number - tags.length)).filterMap
      Markup.Event.tag? = [] := by
    cases number - tags.length with
    | zero => rfl
    | succ later => simp [Markup.Event.tag?]
  rw [List.take_append, List.filterMap_append, List.length_map, none, List.append_nil,
    ← List.map_take, List.filterMap_map, own]

/-- The first markup of a relationship part has the first of its tags. -/
theorem filterMap_tag?_take_markup (number : Nat) :
    (registry.element.markup.take number).filterMap Markup.Event.tag? =
      registry.element.tags.take number := by
  have shape : registry.element = ⟨"Relationships", [("xmlns", Namespace.packageRelationships)],
      none, registry.entries.map fun (id, key) => key.element id⟩ := rfl
  rw [tags_element, shape, Markup.Element.markup]
  split
  · rename_i leaf
    have none : registry.entries = [] := by
      simpa using (Bool.and_eq_true_iff.1 leaf).2
    rw [none]
    cases number with
    | zero => rfl
    | succ later => simp [Markup.Event.tag?]
  · cases number with
    | zero => rfl
    | succ later =>
        rw [markupAll_entries, List.cons_append, List.take_succ_cons, List.filterMap_cons,
          filterMap_tag?_take, List.take_succ_cons]
        rfl

/-- The first tags of a relationship part are read as the first relationships. -/
theorem ofTags_take_tags (number : Nat) :
    Relationship.ofTags (registry.element.tags.take number) =
      .ok ((registry.relationships.map Relationship.written).take (number - 1)) := by
  have root : (Markup.Tag.written "Relationships"
      [("xmlns", Namespace.packageRelationships)]).isNamed "Relationship" = false := by
    rw [Markup.Tag.isNamed_written (by decide)]
    decide
  cases number with
  | zero => rfl
  | succ later =>
      have plainIds : ∀ entry ∈ registry.entries.take later,
          Markup.escaped entry.1 = entry.1 :=
        fun entry member => escaped_id (List.mem_of_mem_take member)
      rw [tags_element, List.take_succ_cons, Relationship.ofTags, root,
        if_neg Bool.false_ne_true, ← List.map_take, Relationship.ofTags_written plainIds,
        relationships, List.map_map, ← List.map_take]
      rfl

variable {registry}

/-- A part that is cut off inside markup is not read. -/
theorem exists_failure_of_parse {layout : Markup.Layout} {cut : String}
    (isCut : cut.toList <+: (registry.part layout).toList)
    (inside : Markup.EndsInMarkup cut.toList) :
    ∃ failure, Relationship.parse cut = .error failure := by
  obtain ⟨fault, found⟩ :=
    (Markup.Reading.ofText_cut layout registry.isWellNamed_element isCut).1 inside
  cases read : Relationship.ofTags (Markup.Reading.ofText cut).tags with
  | error failure => exact ⟨failure, by rw [Relationship.parse, read]; rfl⟩
  | ok listed => exact ⟨.markup fault, by rw [Relationship.parse, read, found]; rfl⟩

/-- A part that is cut off elsewhere is read as the relationships before the cut. -/
theorem parse_of_outside {layout : Markup.Layout} {cut : String}
    (isCut : cut.toList <+: (registry.part layout).toList)
    (outside : ¬Markup.EndsInMarkup cut.toList) :
    Relationship.parse cut = .ok ((registry.relationships.map Relationship.written).take
      (cut.toList.count '>' - 2)) := by
  obtain ⟨clear, tags⟩ :=
    (Markup.Reading.ofText_cut layout registry.isWellNamed_element isCut).2 outside
  rw [Relationship.parse, tags, clear, filterMap_tag?_take_markup, ofTags_take_tags, Nat.sub_sub]
  rfl

/-- Relationships whose targets and types hold no character that is written as an entity are written
as they are. -/
theorem map_written_relationships
    (literal : ∀ key ∈ registry.keys, Markup.IsLiteral key.target ∧ Markup.IsLiteral key.kind) :
    registry.relationships.map Relationship.written = registry.relationships := by
  refine (List.map_congr_left fun relationship member => ?_).trans (List.map_id _)
  exact Relationship.written_eq_self_iff.2
    (registry.forall_isLiteral_iff.2 literal relationship member)

/-- Where no target and no type holds a character that is written as an entity, a part that is cut
off is refused exactly if the cut is inside markup, and elsewhere it is read as the relationships
before the cut. So it is refused or read as a whole exactly if the cut is inside markup or behind
the last relationship: two brackets are closed before the first. -/
theorem parse_cutPart_iff
    (literal : ∀ key ∈ registry.keys, Markup.IsLiteral key.target ∧ Markup.IsLiteral key.kind)
    (layout : Markup.Layout) (length : Nat) :
    ((∃ failure, Relationship.parse (registry.cutPart layout length) = .error failure) ↔
        Markup.EndsInMarkup (registry.cutPart layout length).toList) ∧
      (¬Markup.EndsInMarkup (registry.cutPart layout length).toList →
        Relationship.parse (registry.cutPart layout length) = .ok (registry.relationships.take
          ((registry.cutPart layout length).toList.count '>' - 2))) ∧
      (((∃ failure, Relationship.parse (registry.cutPart layout length) = .error failure) ∨
          Relationship.parse (registry.cutPart layout length) = .ok registry.relationships) ↔
        Markup.EndsInMarkup (registry.cutPart layout length).toList ∨
          registry.relationships.length ≤
            (registry.cutPart layout length).toList.count '>' - 2) := by
  have isCut := registry.cutPart_begins layout length
  by_cases inside : Markup.EndsInMarkup (registry.cutPart layout length).toList
  · have refused := exists_failure_of_parse isCut inside
    exact ⟨iff_of_true refused inside, fun outside => absurd inside outside,
      iff_of_true (.inl refused) (.inl inside)⟩
  · have reads := parse_of_outside isCut inside
    rw [map_written_relationships literal] at reads
    have accepted : ¬∃ failure, Relationship.parse (registry.cutPart layout length) =
        .error failure := by
      rintro ⟨failure, refused⟩
      rw [reads] at refused
      cases refused
    refine ⟨iff_of_false accepted inside, fun _ => reads, ?_⟩
    rw [or_iff_right accepted, or_iff_right inside, reads, Except.ok.injEq]
    exact List.take_eq_self_iff _

/-- The registry of a part with two relationships. -/
def paired : Registry :=
  empty.registerAll [{ target := "a.xml", kind := "t" }, { target := "b.xml", kind := "t" }]

theorem isLiteral_paired :
    ∀ key ∈ paired.keys, Markup.IsLiteral key.target ∧ Markup.IsLiteral key.kind := by
  decide

/-- Its part may be cut off inside the target of its first relationship, or behind this
relationship, where three brackets are closed. -/
theorem cutPart_paired :
    Markup.EndsInMarkup (paired.cutPart .compact 184).toList ∧
      ¬Markup.EndsInMarkup (paired.cutPart .compact 189).toList ∧
      (paired.cutPart .compact 189).toList.count '>' = 3 := by
  rw [toList_cutPart, toList_cutPart, part, Markup.toList_document]
  decide +kernel

/-- A part that is cut off inside the target of its first relationship is refused. -/
theorem parse_cutPart_refused :
    (∀ key ∈ paired.keys, Markup.IsLiteral key.target ∧ Markup.IsLiteral key.kind) ∧
      Markup.EndsInMarkup (paired.cutPart .compact 184).toList ∧
      ∃ failure, Relationship.parse (paired.cutPart .compact 184) = .error failure :=
  ⟨isLiteral_paired, cutPart_paired.1,
    (parse_cutPart_iff isLiteral_paired .compact 184).1.2 cutPart_paired.1⟩

/-- A part that is cut off behind the first of its two relationships is read as this one. -/
theorem parse_cutPart_shorter :
    (∀ key ∈ paired.keys, Markup.IsLiteral key.target ∧ Markup.IsLiteral key.kind) ∧
      Relationship.parse (paired.cutPart .compact 189) = .ok (paired.relationships.take 1) ∧
      ¬((∃ failure, Relationship.parse (paired.cutPart .compact 189) = .error failure) ∨
        Relationship.parse (paired.cutPart .compact 189) = .ok paired.relationships) := by
  obtain ⟨-, outside, closed⟩ := cutPart_paired
  have reads := parse_of_outside (paired.cutPart_begins .compact 189) outside
  rw [map_written_relationships isLiteral_paired, closed] at reads
  refine ⟨isLiteral_paired, reads, ?_⟩
  rintro (⟨failure, refused⟩ | whole)
  · rw [reads] at refused
    cases refused
  · have same : paired.relationships.take 1 = paired.relationships :=
      Except.ok.inj (reads.symm.trans whole)
    exact absurd ((List.take_eq_self_iff _).1 same) (by decide)

end Registry

end WordPackage
