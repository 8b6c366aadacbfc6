import Mathlib.Data.List.Nodup
import WordPackage.Proofs.Metadata.Properties

/-!
# Documents of properties as maps

A document of properties that starts empty is the map of what it was set to: every name that was
ever set has one property, the one that it was set to last, and the properties stand in the order
of these last settings. The root is what it was at the start.
-/

namespace WordPackage

/-- A setting of a property. -/
inductive PropertySetting where
  | text (name value : String)
  | element (given : Markup.Element)

namespace PropertySetting

/-- The element that a property is set to. -/
def assigned : PropertySetting → Markup.Element
  | .text name value => { name, text := some value }
  | .element given => given

/-- Set the property in a document. -/
def perform (properties : Properties) : PropertySetting → Properties
  | .text name value => properties.set name value
  | .element given => properties.setElement given

theorem perform_eq (properties : Properties) (setting : PropertySetting) :
    setting.perform properties = properties.setElement setting.assigned := by
  cases setting with
  | text name value => rfl
  | element given => rfl

end PropertySetting

namespace Properties

/-- The document after settings are made one after another. -/
def setAll (properties : Properties) (settings : List PropertySetting) : Properties :=
  settings.foldl (fun properties setting => setting.perform properties) properties

/-- Whether a document of properties is the map of the elements that its names were set to one
after another, and else as it was at the start. -/
structure IsMapOf (properties start : Properties) (elements : List Markup.Element) : Prop where
  nodup_names : (properties.root.children.map (·.name)).Nodup
  /-- The properties are the elements that no later one replaced, in their order. -/
  children_eq : properties.root.children = unreplaced elements
  get?_eq : ∀ name, properties.get? name
    = elements.reverse.find? fun element => element.name = name
  count_eq : ∀ name, properties.count name = if name ∈ elements.map (·.name) then 1 else 0
  root_eq : properties.root = { start.root with children := properties.root.children }

theorem root_setAll (properties : Properties) (settings : List PropertySetting) :
    (properties.setAll settings).root
      = { properties.root with
          children := properties.root.children.filter
            (fun child => child.name ∉ (settings.map (·.assigned)).map (·.name))
              ++ unreplaced (settings.map (·.assigned)) } := by
  rw [← root_foldl_setElement_unreplaced, List.foldl_map, setAll]
  simp only [PropertySetting.perform_eq]

/-- A document without properties becomes the map of its settings. -/
theorem setAll_isMapOf {start : Properties} (empty : start.root.children = [])
    (settings : List PropertySetting) :
    (start.setAll settings).IsMapOf start (settings.map (·.assigned)) := by
  have root := start.root_setAll settings
  rw [empty, List.filter_nil, List.nil_append] at root
  have distinct := nodup_map_name_unreplaced (settings.map (·.assigned))
  refine ⟨?_, ?_, ?_, ?_, ?_⟩
  · rwa [root]
  · rw [root]
  · intro name
    rw [get?, root, find?_unreplaced]
  · intro name
    have counted : (start.setAll settings).count name
        = ((unreplaced (settings.map (·.assigned))).map (·.name)).count name := by
      rw [count, Markup.Element.childrenNamed, root, ← List.countP_eq_length_filter, List.count,
        List.countP_map]
      rfl
    rw [counted, distinct.count]
    simp only [mem_map_name_unreplaced]
  · rw [root]

/-- Core and extended properties are maps of their settings, ordered by the last setting of each
name. -/
theorem setAll_areMaps (settings : List PropertySetting) :
    (core.setAll settings).IsMapOf core (settings.map (·.assigned)) ∧
    (extended.setAll settings).IsMapOf extended (settings.map (·.assigned)) :=
  ⟨setAll_isMapOf rfl settings, setAll_isMapOf rfl settings⟩

end Properties

end WordPackage
