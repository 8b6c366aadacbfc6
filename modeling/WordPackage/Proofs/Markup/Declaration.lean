import WordPackage.Markup.Attribute
import WordPackage.Markup.Layout

/-!
# Declarations before supplied texts

A text begins with a declaration if a blank follows the five characters that open one.
What is put before a supplied text goes by less than that: the five characters count
wherever only white space precedes them and whatever follows them. The texts that look
declared in this way without beginning with a declaration are the only ones that are left
without one.
-/

namespace WordPackage.Markup

/-- The characters that open a declaration. -/
def declarationOpening : List Char := "<?xml".toList

/-- Whether a text begins, at its first character, with a declaration. -/
def beginsDeclared (text : String) : Bool :=
  declarationOpening.isPrefixOf text.toList
    && (text.toList.drop declarationOpening.length).head?.any isSpace

/-- Whether a text looks declared although it does not begin with a declaration: white space
comes first, or the name of another instruction starts with the same letters. -/
def seemsDeclared (text : String) : Bool :=
  declarationOpening.isPrefixOf (text.toList.dropWhile Text.isBlank) && !beginsDeclared text

theorem beginsDeclared_of_append {text : String} {rest : List Char}
    (opened : text.toList = declarationOpening ++ rest) :
    beginsDeclared text = rest.head?.any isSpace := by
  have opens : declarationOpening.isPrefixOf (declarationOpening ++ rest) = true :=
    List.isPrefixOf_iff_prefix.2 (List.prefix_append _ _)
  rw [beginsDeclared, opened, opens, List.drop_left, Bool.true_and]

theorem dropWhile_of_beginsDeclared {text : String} (declared : beginsDeclared text = true) :
    text.toList.dropWhile Text.isBlank = text.toList := by
  have opens := (Bool.and_eq_true_iff.1 declared).1
  obtain ⟨rest, opened⟩ := List.isPrefixOf_iff_prefix.1 opens
  rw [← opened]
  exact List.dropWhile_cons_of_neg (by decide)

theorem beginsDeclared_of_declaration {text : String} {rest : List Char}
    (declared : text.toList = declaration.toList ++ rest) : beginsDeclared text = true := by
  obtain ⟨remainder, standard⟩ :
      ∃ remainder, declaration.toList = declarationOpening ++ ' ' :: remainder :=
    ⟨declaration.toList.drop 6, by decide⟩
  rw [standard, List.append_assoc] at declared
  exact beginsDeclared_of_append declared

theorem beginsDeclared_document (layout : Layout) (element : Element) :
    beginsDeclared (element.document layout) = true :=
  beginsDeclared_of_declaration (toList_document layout element)

/-- A text that begins with a declaration or seems to is left as it is; any other text comes
behind the standard declaration and a line feed. -/
theorem ensureDeclaration_eq (text : String) :
    ensureDeclaration text
      = if beginsDeclared text || seemsDeclared text then text
        else declaration ++ "\n" ++ text := by
  have looks : "<?xml".toList.isPrefixOf (text.toList.dropWhile Text.isBlank)
      = (beginsDeclared text || seemsDeclared text) := by
    cases begins : beginsDeclared text with
    | false => rw [seemsDeclared, begins, Bool.not_false, Bool.and_true, Bool.false_or]; rfl
    | true =>
        rw [dropWhile_of_beginsDeclared begins, Bool.true_or]
        exact (Bool.and_eq_true_iff.1 begins).1
  rw [ensureDeclaration, looks]

/-- What is put before a text makes it begin with a declaration unless it seems declared. -/
theorem beginsDeclared_ensureDeclaration (text : String) :
    beginsDeclared (ensureDeclaration text) = !seemsDeclared text := by
  rw [ensureDeclaration_eq]
  cases begins : beginsDeclared text with
  | true => rw [Bool.true_or, if_pos rfl, begins, seemsDeclared, begins, Bool.not_true,
      Bool.and_false, Bool.not_false]
  | false =>
      cases seems : seemsDeclared text with
      | true => rw [Bool.or_true, if_pos rfl, begins, Bool.not_true]
      | false =>
          have ahead : (declaration ++ "\n" ++ text).toList
              = declaration.toList ++ ("\n".toList ++ text.toList) := by
            rw [String.toList_append, String.toList_append, List.append_assoc]
          exact beginsDeclared_of_declaration ahead

/-- Once a text has been given a declaration, doing so again changes nothing. -/
theorem ensureDeclaration_ensureDeclaration (text : String) :
    ensureDeclaration (ensureDeclaration text) = ensureDeclaration text := by
  cases seems : seemsDeclared text with
  | false =>
      have begins := beginsDeclared_ensureDeclaration text
      rw [seems, Bool.not_false] at begins
      rw [ensureDeclaration_eq (ensureDeclaration text), begins, Bool.true_or, if_pos rfl]
  | true =>
      have unchanged : ensureDeclaration text = text := by
        rw [ensureDeclaration_eq, seems, Bool.or_true, if_pos rfl]
      rw [unchanged, unchanged]

/-- Another instruction and a leading blank are taken for a declaration, a byte-order mark is
not. -/
example : seemsDeclared "<?xml-stylesheet?><a/>" = true ∧
    seemsDeclared " <?xml version=\"1.0\"?><a/>" = true ∧
      seemsDeclared "\uFEFF<?xml version=\"1.0\"?><a/>" = false := by
  decide

end WordPackage.Markup
