import WordPackage.Metadata.Authors
import WordPackage.Proofs.Text.Marks

/-!
# Taking lists of authors apart

In the form with ampersands every ampersand of a name is doubled, so that a single one between
spaces can only be the separator: wherever a name begins or ends with spaces or ampersands, the
first occurrence of the separator from the left is the one that was put there. Cutting at the
separator and undoing the doubling gives the names back.
-/

namespace WordPackage

open Text (pieces replaced)

/-- What stands between two names. -/
def authorSeparator : List Char := [' ', '&', ' ']

/-- The names in a text of authors: the pieces between the separators, every doubled ampersand
taken for one. -/
def separateAuthors (text : String) : List String :=
  (pieces authorSeparator text.toList).map fun piece =>
    .ofList (replaced ['&', '&'] ['&'] piece)

/-- The characters of a name with every ampersand doubled. -/
def doubled (name : List Char) : List Char :=
  name.flatMap fun char => if char = '&' then ['&', '&'] else [char]

theorem toList_doubleAmpersands (name : String) :
    (doubleAmpersands name).toList = doubled name.toList :=
  String.toList_ofList

@[simp] theorem doubled_ampersand (rest : List Char) :
    doubled ('&' :: rest) = '&' :: '&' :: doubled rest := rfl

theorem doubled_cons {char : Char} (plain : char ≠ '&') (rest : List Char) :
    doubled (char :: rest) = char :: doubled rest := by
  rw [doubled, List.flatMap_cons, if_neg plain, List.singleton_append, doubled]

/-- Undoing the doubling gives the name back. -/
theorem replaced_doubled (name : List Char) :
    replaced ['&', '&'] ['&'] (doubled name) = name := by
  induction name with
  | nil => rfl
  | cons char rest ih =>
      by_cases ampersand : char = '&'
      · subst ampersand
        have found := Text.replaced_append_mark (List.cons_ne_nil '&' ['&']) ['&'] (doubled rest)
        rw [ih] at found
        exact found
      · have absent : ¬['&', '&'] <+: char :: doubled rest := by
          intro found
          exact ampersand (List.cons_prefix_cons.1 found).1.symm
        rw [doubled_cons ampersand, Text.replaced_cons absent, ih]

/-- No separator begins at a character of a name, unless what follows the name completes it: after
a space stands no ampersand, or a doubled one. -/
theorem not_prefix_authorSeparator {char : Char} {rest tail : List Char}
    (apart : tail.head? ≠ some '&') : ¬authorSeparator <+: char :: (doubled rest ++ tail) := by
  intro found
  obtain ⟨-, behind⟩ := List.cons_prefix_cons.1 found
  cases rest with
  | nil =>
      obtain ⟨after, rfl⟩ := behind
      exact apart rfl
  | cons next others =>
      by_cases ampersand : next = '&'
      · subst ampersand
        rw [doubled_ampersand] at behind
        have second := (List.cons_prefix_cons.1 behind).2
        exact absurd (List.cons_prefix_cons.1 second).1 (by decide)
      · rw [doubled_cons ampersand] at behind
        exact ampersand (List.cons_prefix_cons.1 behind).1.symm

/-- A name is in one piece with what is behind it up to the next separator, unless an ampersand
follows. -/
theorem pieces_doubled_append {tail : List Char} (apart : tail.head? ≠ some '&')
    (name : List Char) : pieces authorSeparator (doubled name ++ tail)
      = (pieces authorSeparator tail).modifyHead (doubled name ++ ·) := by
  induction name with
  | nil => exact (congrFun List.modifyHead_id _).symm
  | cons char rest ih =>
      by_cases ampersand : char = '&'
      · subst ampersand
        have absent : ∀ chars, ¬authorSeparator <+: '&' :: chars := by
          intro chars found
          exact absurd (List.cons_prefix_cons.1 found).1 (by decide)
        rw [doubled_ampersand, List.cons_append, List.cons_append, Text.pieces_cons (absent _),
          Text.pieces_cons (absent _), ih, List.modifyHead_modifyHead, List.modifyHead_modifyHead]
        rfl
      · rw [doubled_cons ampersand, List.cons_append,
          Text.pieces_cons (not_prefix_authorSeparator apart), ih, List.modifyHead_modifyHead]
        rfl

/-- Cutting joined names at the separators gives the names, with their ampersands still doubled. -/
theorem pieces_intercalate_doubled {names : List (List Char)} (given : names ≠ []) :
    pieces authorSeparator (authorSeparator.intercalate (names.map doubled))
      = names.map doubled := by
  induction names with
  | nil => exact absurd rfl given
  | cons name later ih =>
      cases later with
      | nil =>
          have alone : ([] : List Char).head? ≠ some '&' := by decide
          have last := pieces_doubled_append alone name
          rw [List.append_nil, Text.pieces_nil] at last
          rw [List.map_singleton, List.intercalate_singleton, last]
          simp
      | cons next others =>
          have inner : (authorSeparator ++ authorSeparator.intercalate
              ((next :: others).map doubled)).head? ≠ some '&' := by
            intro first
            exact absurd (Option.some.inj first) (by decide)
          rw [List.map_cons, List.map_cons, List.intercalate_cons_cons, List.append_assoc,
            ← List.map_cons, pieces_doubled_append inner, Text.pieces_append_mark (by decide),
            ih (List.cons_ne_nil _ _), List.modifyHead_cons, List.append_nil]

/-- A list with a name that is not empty is taken apart into these names. -/
theorem separateAuthors_of_ne_nil {authors : List String}
    (named : authors.filter (· ≠ "") ≠ []) :
    separateAuthors (ampersandAuthors authors) = authors.filter (· ≠ "") := by
  have chars : (ampersandAuthors authors).toList
      = authorSeparator.intercalate
          (((authors.filter (· ≠ "")).map String.toList).map doubled) := by
    have each : String.toList ∘ doubleAmpersands = doubled ∘ String.toList :=
      funext toList_doubleAmpersands
    rw [ampersandAuthors, String.toList_intercalate, List.map_map, each, List.map_map]
    rfl
  have back : ((fun piece => String.ofList (replaced ['&', '&'] ['&'] piece)) ∘ doubled) ∘
      String.toList = id := by
    funext name
    exact (congrArg String.ofList (replaced_doubled name.toList)).trans String.ofList_toList
  rw [separateAuthors, chars, pieces_intercalate_doubled (mt List.map_eq_nil_iff.1 named),
    List.map_map, List.map_map, back, List.map_id]

theorem separateAuthors_of_eq_nil {authors : List String}
    (unnamed : authors.filter (· ≠ "") = []) :
    separateAuthors (ampersandAuthors authors) = [""] := by
  rw [ampersandAuthors, unnamed]
  rfl

/-- Taking the text of a list of authors apart gives the names that are not empty, in their order,
whatever ampersands and spaces they have at their ends or anywhere else, provided that there is
such a name. So two lists have the same text exactly if they have the same names apart from empty
ones. -/
theorem separateAuthors_ampersandAuthors (authors others : List String) :
    (separateAuthors (ampersandAuthors authors) = authors.filter (· ≠ "")
        ↔ ∃ author ∈ authors, author ≠ "") ∧
      (ampersandAuthors authors = ampersandAuthors others
        ↔ authors.filter (· ≠ "") = others.filter (· ≠ "")) := by
  have named : ∀ list : List String, list.filter (· ≠ "") ≠ [] ↔ ∃ author ∈ list, author ≠ "" := by
    intro list
    rw [ne_eq, List.filter_eq_nil_iff]
    simp
  have nameless : ∀ list : List String, list.filter (· ≠ "") ≠ [""] := by
    intro list same
    have member : "" ∈ list.filter (· ≠ "") := same ▸ List.mem_singleton_self ""
    exact of_decide_eq_true (List.mem_filter.1 member).2 rfl
  refine ⟨⟨?_, ?_⟩, ?_, ?_⟩
  · intro separates
    apply (named authors).1
    intro unnamed
    rw [separateAuthors_of_eq_nil unnamed] at separates
    exact nameless authors separates.symm
  · intro given
    exact separateAuthors_of_ne_nil ((named authors).2 given)
  · intro same
    have separated := congrArg separateAuthors same
    by_cases here : authors.filter (· ≠ "") = []
    · by_cases there : others.filter (· ≠ "") = []
      · rw [here, there]
      · rw [separateAuthors_of_eq_nil here, separateAuthors_of_ne_nil there] at separated
        exact absurd separated.symm (nameless others)
    · by_cases there : others.filter (· ≠ "") = []
      · rw [separateAuthors_of_ne_nil here, separateAuthors_of_eq_nil there] at separated
        exact absurd separated (nameless authors)
      · rw [separateAuthors_of_ne_nil here, separateAuthors_of_ne_nil there] at separated
        exact separated
  · intro same
    rw [ampersandAuthors, same, ampersandAuthors]

end WordPackage
