import WordPackage.Text.Blank

/-!
# Lists of authors as one text

The property for authors is a single text. The serial form reads well; in the
form with ampersands the list can be taken apart again, since an ampersand
within a name is doubled.
-/

namespace WordPackage

/-- Makes one text of a list of authors. -/
abbrev AuthorFormatter := List String → String

/-- The serial form: `A`, `A & B`, `A, B & C`. Names are trimmed, and those that
are blank left out. -/
def serialAuthors : AuthorFormatter := fun authors =>
  let names := (authors.map Text.trim).filter (· ≠ "")
  match names.getLast? with
  | none => ""
  | some last =>
      match names.dropLast with
      | [] => last
      | others => ", ".intercalate others ++ " & " ++ last

/-- A name with every ampersand doubled. -/
def doubleAmpersands (name : String) : String :=
  .ofList (name.toList.flatMap fun char => if char = '&' then ['&', '&'] else [char])

/-- The form with ampersands: names with doubled ampersands, separated by one
ampersand between spaces. Empty names are left out. -/
def ampersandAuthors : AuthorFormatter := fun authors =>
  " & ".intercalate ((authors.filter (· ≠ "")).map doubleAmpersands)

end WordPackage
