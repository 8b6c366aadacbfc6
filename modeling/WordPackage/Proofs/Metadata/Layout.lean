import WordPackage.Metadata.PropertyWriter

/-!
# The layout of property documents

The first child of an element without a text is where layouts part: it follows the
opening tag at once, or on a new line. A property document always has properties, so
its text tells the layout in which it was written.
-/

namespace WordPackage

namespace Markup

/-- Whether an element has children right behind its opening tag. -/
structure Element.HasInside (element : Element) : Prop where
  text : element.text = none
  children : element.children ≠ []

theorem Element.exists_cons_pieces (element : Element) (depth : Nat) :
    ∃ markup later, element.pieces depth = .tag depth ('<' :: markup) :: later := by
  obtain ⟨name, attributes, text, children⟩ := element
  rw [Element.pieces]
  split
  · exact ⟨_, _, rfl⟩
  · exact ⟨_, _, rfl⟩

/-- An element with children begins with its opening tag and the tag of the first child. -/
theorem Element.HasInside.exists_cons_pieces {element : Element} (inside : element.HasInside)
    (depth : Nat) :
    ∃ opening markup later,
      element.pieces depth = .tag depth opening :: .tag (depth + 1) ('<' :: markup) :: later := by
  obtain ⟨text, children⟩ := inside
  obtain ⟨name, attributes, _, _ | ⟨child, rest⟩⟩ := element
  · exact absurd rfl children
  · obtain rfl := text
    obtain ⟨markup, later, first⟩ := child.exists_cons_pieces (depth + 1)
    rw [Element.pieces, Element.piecesAll, first]
    exact ⟨_, _, _, rfl⟩

/-- The layouts of an element with children differ in its text. -/
theorem Element.HasInside.document_injective {element : Element} (inside : element.HasInside)
    {left right : Layout} (same : element.document left = element.document right) :
    left = right := by
  obtain ⟨opening, markup, later, pieces⟩ := inside.exists_cons_pieces 0
  have chars := congrArg String.toList same
  rw [toList_document, toList_document, List.append_cancel_left_eq, List.cons.injEq,
    Element.body, Element.body, pieces] at chars
  have behind := chars.2
  cases left with
  | compact =>
      cases right with
      | compact => rfl
      | indented => simp [Layout.place] at behind
  | indented =>
      cases right with
      | compact => simp [Layout.place] at behind
      | indented => rfl

end Markup

namespace Properties

variable {properties : Properties}

theorem hasInside_setElement (text : properties.root.text = none) (element : Markup.Element) :
    (properties.setElement element).root.HasInside where
  text := text
  children := by simp [setElement, Markup.Element.pushChild]

theorem hasInside_foldl_set (inside : properties.root.HasInside) (pairs : List (String × String)) :
    (pairs.foldl (fun updated pair => updated.set pair.1 pair.2) properties).root.HasInside := by
  induction pairs generalizing properties with
  | nil => exact inside
  | cons pair later ih => exact ih (hasInside_setElement inside.text _)

end Properties

namespace PropertyWriter

variable (writer : PropertyWriter) (record : MetadataRecord)

theorem hasInside_coreProperties (now : Instant) :
    (writer.coreProperties record now).root.HasInside := by
  apply Properties.hasInside_foldl_set
  apply Properties.hasInside_setElement
  rfl

theorem hasInside_extendedProperties : (writer.extendedProperties record).root.HasInside := by
  rw [extendedProperties]
  split
  · apply Properties.hasInside_setElement
    rfl
  · apply Properties.hasInside_setElement
    rfl

end PropertyWriter

end WordPackage
