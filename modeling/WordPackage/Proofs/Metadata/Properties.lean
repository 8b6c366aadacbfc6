import WordPackage.Metadata.Properties

/-!
# Properties set one after another

A property that is set removes what has its name and goes to the end. After a sequence of settings
each name that was set has the element that it was set to last, in the order of these last
settings, behind the properties of other names. Where properties of different names are set, the
new ones follow in the order in which they were set.
-/

namespace WordPackage.Properties

/-- A property with a text only. -/
def textElement (property : String × String) : Markup.Element :=
  { name := property.1, text := some property.2 }

theorem get?_eq_head? (properties : Properties) (name : String) :
    properties.get? name = (properties.root.childrenNamed name).head? :=
  List.head?_filter.symm

/-- The elements that are not replaced by a later one of the same name. -/
def unreplaced : List Markup.Element → List Markup.Element
  | [] => []
  | element :: later =>
      if element.name ∈ later.map (·.name) then unreplaced later else element :: unreplaced later

theorem unreplaced_of_nodup {elements : List Markup.Element}
    (distinct : (elements.map (·.name)).Nodup) : unreplaced elements = elements := by
  induction elements with
  | nil => rfl
  | cons element later ih =>
      rw [List.map_cons, List.nodup_cons] at distinct
      rw [unreplaced, if_neg distinct.1, ih distinct.2]

/-- A name is kept with the last element that it has. -/
theorem mem_map_name_unreplaced {name : String} {elements : List Markup.Element} :
    name ∈ (unreplaced elements).map (·.name) ↔ name ∈ elements.map (·.name) := by
  induction elements with
  | nil => rfl
  | cons element later ih =>
      rw [unreplaced, List.map_cons, List.mem_cons]
      split
      · rename_i replaced
        rw [ih]
        constructor
        · exact .inr
        · rintro (rfl | member)
          · exact replaced
          · exact member
      · rw [List.map_cons, List.mem_cons, ih]

/-- No two elements of the same name are kept. -/
theorem nodup_map_name_unreplaced (elements : List Markup.Element) :
    ((unreplaced elements).map (·.name)).Nodup := by
  induction elements with
  | nil => exact List.nodup_nil
  | cons element later ih =>
      rw [unreplaced]
      split
      · exact ih
      · rename_i last
        rw [List.map_cons, List.nodup_cons, mem_map_name_unreplaced]
        exact ⟨last, ih⟩

theorem isSome_find?_unreplaced {name : String} {elements : List Markup.Element} :
    ((unreplaced elements).find? fun element => element.name = name).isSome ↔
      name ∈ elements.map (·.name) := by
  rw [← mem_map_name_unreplaced, List.find?_isSome, List.mem_map]
  simp only [decide_eq_true_eq]

/-- The element that is kept of a name is the last one. -/
theorem find?_unreplaced (name : String) (elements : List Markup.Element) :
    (unreplaced elements).find? (fun element => element.name = name)
      = elements.reverse.find? fun element => element.name = name := by
  induction elements with
  | nil => rfl
  | cons element later ih =>
      rw [List.reverse_cons, List.find?_append, ← ih, unreplaced]
      by_cases same : element.name = name
      · subst same
        split
        · rename_i replaced
          obtain ⟨other, found⟩ := Option.isSome_iff_exists.1 (isSome_find?_unreplaced.2 replaced)
          rw [found, Option.some_or]
        · rename_i last
          rw [← isSome_find?_unreplaced, Option.not_isSome_iff_eq_none] at last
          simp [last]
      · have apart : [element].find? (fun element => element.name = name) = none := by
          simp [same]
        rw [apart, Option.or_none]
        split
        · rfl
        · simp [same]

/-- Properties that are set one after another stand behind the properties of other names, each name
with the element that it was set to last. -/
theorem root_foldl_setElement_unreplaced (properties : Properties)
    (elements : List Markup.Element) :
    (elements.foldl setElement properties).root
      = { properties.root with
          children := properties.root.children.filter
            (fun child => child.name ∉ elements.map (·.name)) ++ unreplaced elements } := by
  -- The induction is from the front, since only later elements replace an element.
  induction elements generalizing properties with
  | nil =>
      obtain ⟨⟨name, attributes, text, children⟩⟩ := properties
      have all : children.filter (fun child => child.name ∉ []) = children :=
        List.filter_eq_self.2 fun _ _ => rfl
      rw [List.foldl_nil, List.map_nil, all, unreplaced, List.append_nil]
  | cons element later ih =>
      have own : [element].filter (fun child => child.name ∉ later.map (·.name))
          ++ unreplaced later = unreplaced (element :: later) := by
        rw [unreplaced, List.filter_cons, List.filter_nil]
        split
        · rename_i last
          rw [if_neg (of_decide_eq_true last), List.singleton_append]
        · rename_i replaced
          rw [decide_eq_true_eq, Decidable.not_not] at replaced
          rw [if_pos replaced, List.nil_append]
      have kept : (properties.root.children.filter fun child => child.name ≠ element.name).filter
          (fun child => child.name ∉ later.map (·.name))
            = properties.root.children.filter
                fun child => child.name ∉ (element :: later).map (·.name) := by
        rw [List.filter_filter]
        apply List.filter_congr
        intro child _
        rw [List.map_cons, ← Bool.decide_and, decide_eq_decide, List.mem_cons, not_or, and_comm]
      rw [List.foldl_cons, ih, setElement, Markup.Element.pushChild,
        Markup.Element.removeChildrenNamed]
      dsimp only
      rw [List.filter_append, kept, List.append_assoc, own]

/-- Properties of different names that are set one after another stand in this order behind the
properties of other names. -/
theorem root_foldl_setElement_of_nodup {properties : Properties} {elements : List Markup.Element}
    (distinct : (elements.map (·.name)).Nodup) :
    (elements.foldl setElement properties).root
      = { properties.root with
          children := properties.root.children.filter
            (fun child => child.name ∉ elements.map (·.name)) ++ elements } := by
  rw [root_foldl_setElement_unreplaced, unreplaced_of_nodup distinct]

end WordPackage.Properties
