import WordPackage.Relationship.Part
import WordPackage.Proofs.Markup.WrittenDocument
import WordPackage.Proofs.Relationship.Registry

/-!
# Reading relationship parts back

A relationship part is read as the relationships of its registry, in the same
order and with the same identifiers and modes, each target and type as it stands
in the document. Values are not translated back when they are read. So the
relationships come back unchanged exactly when no target and no type holds a
character that is written as an entity.
-/

namespace WordPackage

/-- The attributes of a relationship as they are written. -/
def RelationshipKey.attributes (key : RelationshipKey) (id : String) : List (String × String) :=
  [("Id", id), ("Type", key.kind), ("Target", key.target)] ++
    match key.mode with
    | .internal => []
    | .external => [("TargetMode", "External")]

namespace RelationshipKey

variable (key : RelationshipKey) (id : String)

theorem attributes_element : (key.element id).attributes = key.attributes id := by
  unfold element attributes
  cases key.mode <;> rfl

theorem name_element : (key.element id).name = "Relationship" ∧ (key.element id).children = [] := by
  unfold element
  cases key.mode <;> exact ⟨rfl, rfl⟩

theorem isName_attributes : ∀ pair ∈ key.attributes id, Markup.IsName pair.1.toList := by
  unfold attributes
  cases key.mode <;> simp <;> decide

theorem nodup_attributes : ((key.attributes id).map Prod.fst).Nodup := by
  unfold attributes
  cases key.mode <;> simp

/-- The element of a relationship is well named. -/
theorem isWellNamed_element : (key.element id).IsWellNamed := by
  obtain ⟨name, none⟩ := key.name_element id
  have keys := key.isName_attributes id
  rw [← attributes_element] at keys
  cases shape : key.element id with
  | mk name' attributes' text' children' =>
      rw [shape] at name none keys
      subst name none
      exact ⟨by decide, keys, trivial⟩

end RelationshipKey

namespace Relationship

/-- A relationship as it stands in a written part. -/
def written (relationship : Relationship) : Relationship :=
  { relationship with
    kind := Markup.escaped relationship.kind
    target := Markup.escaped relationship.target }

/-- A relationship that is written as it is. -/
def IsLiteral (relationship : Relationship) : Prop :=
  Markup.IsLiteral relationship.kind ∧ Markup.IsLiteral relationship.target

theorem written_eq_self_iff {relationship : Relationship} :
    relationship.written = relationship ↔ relationship.IsLiteral := by
  cases relationship
  simp [written, IsLiteral, Markup.escaped_eq_self_iff]

/-- The tag of a relationship is read as the relationship as written. -/
theorem ofTag_written (key : RelationshipKey) (id : String) :
    ofTag (.written "Relationship" (key.attributes id))
      = .ok { id := Markup.escaped id, kind := Markup.escaped key.kind,
              target := Markup.escaped key.target, mode := key.mode } := by
  have isName : Markup.IsName "Relationship".toList := by decide
  have value := Markup.Tag.attribute?_written isName (key.isName_attributes id)
    (key.nodup_attributes id)
  have mode : modeOf ((Assignments.get? "TargetMode" (key.attributes id)).map Markup.escaped)
      = key.mode := by
    have external : Markup.escaped "External" = "External" :=
      Markup.IsLiteral.escaped_eq (by decide)
    unfold RelationshipKey.attributes
    cases key.mode <;> simp [Assignments.get?, modeOf, external]
  simp only [ofTag, required, value, mode]
  rfl

/-- The tags of relationships are read as the relationships as written. -/
theorem ofTags_written {entries : List (String × RelationshipKey)}
    (plainIds : ∀ entry ∈ entries, Markup.escaped entry.1 = entry.1) :
    ofTags (entries.map fun entry => .written "Relationship" (entry.2.attributes entry.1))
      = .ok (entries.map fun entry => written
          { id := entry.1, kind := entry.2.kind, target := entry.2.target,
            mode := entry.2.mode }) := by
  induction entries with
  | nil => rfl
  | cons entry rest ih =>
      have named : (Markup.Tag.written "Relationship"
          (entry.2.attributes entry.1)).isNamed "Relationship" = true := by
        rw [Markup.Tag.isNamed_written (by decide)]
        decide
      rw [List.map_cons, ofTags, if_pos named, ofTag_written,
        ih fun other member => plainIds other (List.mem_cons_of_mem _ member),
        plainIds entry List.mem_cons_self]
      rfl

end Relationship

namespace Registry

/-- The characters of an identifier are letters and digits. -/
theorem isLiteral_identifier (number : Nat) : Markup.IsLiteral (identifier number) := by
  intro char member
  rw [identifier, String.toList_append, List.mem_append] at member
  rcases member with letter | digit
  · exact (show Markup.IsLiteral "rId" by decide) char letter
  · have isDigit : char.isDigit = true :=
      Nat.isDigit_of_mem_toDigits (by decide) (by decide) (Nat.toList_repr ▸ digit)
    by_cases plain : Markup.isSpecial char = false
    · exact plain
    · rcases Markup.eq_of_isSpecial plain with rfl | rfl | rfl | rfl | rfl <;> cases isDigit

theorem escaped_id {registry : Registry} {entry : String × RelationshipKey}
    (member : entry ∈ registry.entries) : Markup.escaped entry.1 = entry.1 := by
  obtain ⟨⟨key, position⟩, -, rfl⟩ := List.mem_map.1 member
  exact (isLiteral_identifier _).escaped_eq

variable (registry : Registry)

theorem isWellNamed_element : registry.element.IsWellNamed := by
  refine ⟨by decide, ?_, Markup.Element.areWellNamed_iff.2 ?_⟩
  · intro pair member
    obtain rfl := List.mem_singleton.1 member
    decide
  · intro element member
    obtain ⟨⟨id, key⟩, -, rfl⟩ := List.mem_map.1 member
    exact key.isWellNamed_element id

/-- The tags of a relationship part: its root and one for each relationship. -/
theorem tags_element : registry.element.tags
    = .written "Relationships" [("xmlns", Namespace.packageRelationships)]
      :: registry.entries.map fun entry =>
          .written "Relationship" (entry.2.attributes entry.1) := by
  have childless : ∀ element ∈ registry.element.children, element.children = [] := by
    intro element member
    obtain ⟨⟨id, key⟩, -, rfl⟩ := List.mem_map.1 member
    exact (key.name_element id).2
  have tags : registry.element.tags = .written "Relationships"
      [("xmlns", Namespace.packageRelationships)]
        :: Markup.Element.tagsAll registry.element.children := rfl
  rw [tags, Markup.Element.tagsAll_of_childless childless]
  simp [element, RelationshipKey.attributes_element, RelationshipKey.name_element]

/-- A relationship part is read as the relationships of its registry, as they are written. -/
theorem parse_part (layout : Markup.Layout) :
    Relationship.parse (registry.part layout)
      = .ok (registry.relationships.map Relationship.written) := by
  have wellNamed := registry.isWellNamed_element
  have root : (Markup.Tag.written "Relationships"
      [("xmlns", Namespace.packageRelationships)]).isNamed "Relationship" = false := by
    rw [Markup.Tag.isNamed_written (by decide)]
    decide
  rw [Relationship.parse, part, Markup.Reading.tags_document layout wellNamed,
    Markup.Reading.fault_document layout wellNamed, tags_element, Relationship.ofTags, root,
    if_neg Bool.false_ne_true, Relationship.ofTags_written fun _ member => escaped_id member,
    relationships, List.map_map]
  rfl

theorem forall_isLiteral_iff :
    (∀ relationship ∈ registry.relationships, relationship.IsLiteral) ↔
      ∀ key ∈ registry.keys, Markup.IsLiteral key.target ∧ Markup.IsLiteral key.kind := by
  rw [← registry.map_snd_entries, relationships, List.forall_mem_map, List.forall_mem_map]
  exact forall₂_congr fun _ _ => and_comm

/-- Whatever was registered, a relationship part is read as the registered relationships in
their order, with their identifiers and modes, and with targets and types as they are
written. These are the registered ones exactly when no target and no type holds a character
that is written as an entity. -/
theorem part_reads_back (layout : Markup.Layout) :
    Relationship.parse (registry.part layout)
        = .ok (registry.relationships.map Relationship.written) ∧
      (Relationship.parse (registry.part layout) = .ok registry.relationships ↔
        ∀ key ∈ registry.keys, Markup.IsLiteral key.target ∧ Markup.IsLiteral key.kind) := by
  refine ⟨registry.parse_part layout, ?_⟩
  rw [parse_part, Except.ok.injEq, ← forall_isLiteral_iff]
  constructor
  · intro same relationship member
    have unchanged := List.map_inj_left.1 (same.trans (List.map_id _).symm) relationship member
    exact Relationship.written_eq_self_iff.1 unchanged
  · intro literal
    refine (List.map_congr_left fun relationship member => ?_).trans (List.map_id _)
    exact Relationship.written_eq_self_iff.2 (literal relationship member)

/-- The registry of a part with one link whose address has two parameters. -/
def linked : Registry :=
  empty.register { target := "http://e/?a=1&b=2", kind := RelationshipType.hyperlink,
                   mode := .external }

/-- A link with an ampersand is not read back as it was registered. -/
theorem parse_part_linked_ne :
    Relationship.parse (linked.part .compact) ≠ .ok linked.relationships := by
  rw [parse_part]
  intro same
  have targets := congrArg (List.map Relationship.target) (Except.ok.inj same)
  revert targets
  decide +kernel

end Registry

end WordPackage
