import Mathlib.Data.List.TakeWhile
import Mathlib.Tactic.Tauto
import WordPackage.Language.Table
import WordPackage.Proofs.Text.Blank

/-!
# Recognition of language tags

No key of the table has a hyphen, so that a tag is recognized by what stands before its first
hyphen or underscore, and by nothing else. Blanks around the tag and the case of its letters
make no difference. The codes of a language lead back to it, which makes the recognized value
stable.
-/

namespace WordPackage

namespace Language

/-- The keys of a language. -/
def keys (language : Language) : List String :=
  language.code :: language.name :: (language.twoLetter.toList ++ language.bibliographic.toList)

theorem hasKey_iff {language : Language} {key : String} :
    language.hasKey key = true ↔ key ∈ language.keys := by
  simp only [hasKey, keys, Bool.or_eq_true, decide_eq_true_eq, List.mem_cons, List.mem_append,
    Option.mem_toList, eq_comm (a := key)]
  tauto

theorem mem_of_find? {language : Language} {key : String} (found : find? key = some language) :
    language ∈ table ∧ key ∈ language.keys := by
  unfold find? at found
  have keyed := List.find?_some (p := fun language : Language => language.hasKey key) found
  exact ⟨List.mem_of_find?_eq_some found, hasKey_iff.1 keyed⟩

theorem forall_mem_keys : ∀ language ∈ table, ∀ key ∈ language.keys,
    ∀ char ∈ key.toList, char ≠ '-' ∧ char.toNat < 128 := by
  have all : table.all (fun language => language.keys.all fun key => key.toList.all fun char =>
      char != '-' && char.toNat < 128) = true := by decide +kernel
  simpa only [List.all_eq_true, Bool.and_eq_true, bne_iff_ne, decide_eq_true_eq] using all

theorem find?_code : ∀ language ∈ table,
    find? language.code = some language ∧ normalize language.code = language.code ∧
      lower language.code = language.code := by
  decide +kernel

theorem find?_twoLetter : ∀ language ∈ table, ∀ code ∈ language.twoLetter,
    find? code = some language ∧ normalize code = code := by
  decide +kernel

theorem find?_of_hyphen {key : String} (hyphen : '-' ∈ key.toList) : find? key = none := by
  cases found : find? key with
  | none => rfl
  | some language =>
      obtain ⟨listed, isKey⟩ := mem_of_find? found
      exact absurd rfl (forall_mem_keys language listed key isKey '-' hyphen).1

theorem find?_of_not_ascii {key : String} {char : Char} (member : char ∈ key.toList)
    (outside : 128 ≤ char.toNat) : find? key = none := by
  cases found : find? key with
  | none => rfl
  | some language =>
      obtain ⟨listed, isKey⟩ := mem_of_find? found
      exact absurd (forall_mem_keys language listed key isKey char member).2 outside.not_gt

theorem primary_eq_self {key : String} (plain : '-' ∉ key.toList) : primary key = key := by
  have all : ∀ char ∈ key.toList, (char != '-') = true := fun _ member =>
    bne_iff_ne.2 (ne_of_mem_of_not_mem member plain)
  rw [primary, List.takeWhile_eq_self_iff.2 all, String.ofList_toList]

/-- The language of a normalized tag: that of the whole, else that of what stands before its
first hyphen. -/
def recognize (normalized : String) : Option Language :=
  if normalized = "" then none else (find? normalized).or (find? (primary normalized))

/-- What stands before the first hyphen of a normalized tag decides. -/
theorem recognize_eq (normalized : String) : recognize normalized = find? (primary normalized) := by
  unfold recognize
  split
  · rename_i empty
    subst empty
    decide +kernel
  · by_cases hyphen : '-' ∈ normalized.toList
    · rw [find?_of_hyphen hyphen, Option.none_or]
    · rw [primary_eq_self hyphen, Option.or_self]

theorem canonicalize_eq (tag : String) :
    canonicalize tag = (find? (primary (normalize tag))).map code := by
  rw [← recognize_eq, recognize, canonicalize]
  split <;> rfl

/-- A character of a tag as it is compared. -/
def normalChar (char : Char) : Char :=
  if char = '_' then '-' else lowerChar char

/-- What a tag is recognized by: its characters as they are compared, without the blanks around
them, up to the first hyphen. -/
theorem toList_primary_normalize (tag : String) :
    (primary (normalize tag)).toList
      = ((Text.trimBlanks tag.toList).map normalChar).takeWhile (· != '-') := by
  rw [primary, normalize, String.toList_ofList, String.toList_ofList]
  rfl

theorem canonicalize_congr {left right : String}
    (same : ((Text.trimBlanks left.toList).map normalChar).takeWhile (· != '-')
      = ((Text.trimBlanks right.toList).map normalChar).takeWhile (· != '-')) :
    canonicalize left = canonicalize right := by
  have primaries : primary (normalize left) = primary (normalize right) := by
    rw [← String.toList_inj, toList_primary_normalize, toList_primary_normalize, same]
  rw [canonicalize_eq, canonicalize_eq, primaries]

/-- Neither the underscore nor the Kelvin sign is a capital or the small letter of one. -/
theorem ne_of_capital {char : Char} (shifted : char.toLower.val.toNat = char.val.toNat + 32)
    (least : 'A'.val.toNat ≤ char.val.toNat) (greatest : char.val.toNat ≤ 'Z'.val.toNat) :
    (char ≠ '_' ∧ char ≠ '\u212A') ∧ char.toLower ≠ '_' ∧ char.toLower ≠ '\u212A' := by
  have before : '_'.val.toNat < 'A'.val.toNat + 32 := by decide
  have behind : 'Z'.val.toNat + 32 < '\u212A'.val.toNat := by decide
  refine ⟨⟨?_, ?_⟩, ?_, ?_⟩
  · rintro rfl
    exact absurd greatest (by decide)
  · rintro rfl
    exact absurd greatest (by decide)
  · intro equal
    rw [equal] at shifted
    omega
  · intro equal
    rw [equal] at shifted
    omega

theorem normalChar_toLower (char : Char) : normalChar char.toLower = normalChar char := by
  rcases Text.toLower_cases char with ⟨same, -⟩ | ⟨shifted, least, greatest⟩
  · rw [same]
  · obtain ⟨capital, small⟩ := ne_of_capital shifted least greatest
    rw [normalChar, if_neg small.1, lowerChar, if_neg small.2, normalChar, if_neg capital.1,
      lowerChar, if_neg capital.2, Text.toLower_toLower]

/-- The ASCII case of a tag makes no difference. -/
theorem canonicalize_of_foldAscii {left right : String}
    (same : Text.foldAscii left = Text.foldAscii right) :
    canonicalize left = canonicalize right := by
  have folded : ∀ chars : List Char, (Text.trimBlanks chars).map normalChar
      = (Text.trimBlanks (chars.map Char.toLower)).map normalChar := by
    intro chars
    rw [Text.trimBlanks_map_toLower, List.map_map]
    exact List.map_congr_left fun char _ => (normalChar_toLower char).symm
  refine canonicalize_congr ?_
  rw [folded left.toList, folded right.toList, ← Text.toList_foldAscii, ← Text.toList_foldAscii,
    same]

theorem canonicalize_surrounded {before after : String}
    (blanks : ∀ char ∈ before.toList, Text.isBlank char = true)
    (blanks' : ∀ char ∈ after.toList, Text.isBlank char = true) (tag : String) :
    canonicalize (before ++ tag ++ after) = canonicalize tag := by
  refine canonicalize_congr ?_
  rw [String.toList_append, String.toList_append, List.append_assoc,
    Text.trimBlanks_surrounded blanks blanks']

/-- Nothing behind the first hyphen or underscore of a tag makes a difference. -/
theorem canonicalize_append {tag separator : String}
    (ends : ∀ char ∈ tag.toList.getLast?, Text.isBlank char = false)
    (separates : separator ∈ ["-", "_"]) (suffix : String) :
    canonicalize (tag ++ separator ++ suffix) = canonicalize tag := by
  obtain ⟨mark, chars, visible, hyphen⟩ : ∃ mark, separator.toList = [mark] ∧
      Text.isBlank mark = false ∧ normalChar mark = '-' := by
    rcases List.mem_cons.1 separates with rfl | separates
    · exact ⟨'-', rfl, by decide, rfl⟩
    · obtain rfl := List.mem_singleton.1 separates
      exact ⟨'_', rfl, by decide, rfl⟩
  refine canonicalize_congr ?_
  rw [String.toList_append, String.toList_append, chars, List.append_assoc,
    List.singleton_append, Text.trimBlanks_append_cons ends visible, List.map_append,
    List.map_cons, hyphen, Text.takeWhile_append_cons (by decide)]

theorem canonicalize_of_find? {language : Language} {key : String}
    (found : find? key = some language) (normal : normalize key = key) :
    canonicalize key = some language.code := by
  obtain ⟨listed, isKey⟩ := mem_of_find? found
  have plain : '-' ∉ key.toList := fun hyphen =>
    (forall_mem_keys language listed key isKey '-' hyphen).1 rfl
  rw [canonicalize_eq, normal, primary_eq_self plain, found, Option.map_some]

theorem languageValue_of_canonicalize {language : Language} {tag : String}
    (listed : language ∈ table) (recognized : canonicalize tag = some language.code) :
    canonicalizer.languageValue tag = language.twoLetter.getD language.code := by
  obtain ⟨found, -, small⟩ := find?_code language listed
  have shown : twoLetterCode language.code = language.twoLetter := by
    rw [twoLetterCode, small, found, Option.bind_some]
  simp only [LanguageCanonicalizer.languageValue, canonicalizer, recognized, shown]

theorem languageValue_of_unrecognized {tag : String} (unrecognized : canonicalize tag = none) :
    canonicalizer.languageValue tag = tag := by
  simp only [LanguageCanonicalizer.languageValue, canonicalizer, unrecognized]

theorem exists_of_canonicalize {tag code : String} (recognized : canonicalize tag = some code) :
    ∃ language ∈ table, language.code = code := by
  rw [canonicalize_eq] at recognized
  obtain ⟨language, found, isCode⟩ := Option.map_eq_some_iff.1 recognized
  exact ⟨language, (mem_of_find? found).1, isCode⟩

/-- The value of a language is recognized as the language. -/
theorem canonicalize_value {language : Language} (listed : language ∈ table) :
    canonicalize (language.twoLetter.getD language.code) = some language.code := by
  cases short : language.twoLetter with
  | none =>
      obtain ⟨found, normal, -⟩ := find?_code language listed
      exact canonicalize_of_find? found normal
  | some code =>
      obtain ⟨found, normal⟩ := find?_twoLetter language listed code short
      exact canonicalize_of_find? found normal

/-- The value of a tag is its own value. A recognized tag has a language, whose code is recognized
as itself, and the value is the code of two letters of that language, else its code. Only what
stands before the first hyphen or underscore decides: not what follows it, not the blanks around
the tag, and not the ASCII case of its letters. -/
theorem languageValue_stable (tag : String) :
    canonicalizer.languageValue (canonicalizer.languageValue tag)
        = canonicalizer.languageValue tag ∧
      (∀ code, canonicalize tag = some code →
        canonicalize code = some code ∧
        (∃ language ∈ table, language.code = code) ∧
        ∀ language ∈ table, language.code = code →
          canonicalizer.languageValue tag = language.twoLetter.getD code) ∧
      (∀ code, canonicalize tag = some code →
        (∀ char ∈ tag.toList.getLast?, Text.isBlank char = false) →
        ∀ separator ∈ ["-", "_"], ∀ suffix,
          canonicalize (tag ++ separator ++ suffix) = some code) ∧
      ∀ before after : String,
        (∀ char ∈ before.toList, Text.isBlank char = true) →
        (∀ char ∈ after.toList, Text.isBlank char = true) →
        ∀ spelled, Text.foldAscii spelled = Text.foldAscii tag →
          canonicalize (before ++ spelled ++ after) = canonicalize tag := by
  refine ⟨?_, ?_, ?_, ?_⟩
  · cases recognized : canonicalize tag with
    | none => rw [languageValue_of_unrecognized recognized,
        languageValue_of_unrecognized recognized]
    | some code =>
        obtain ⟨language, listed, rfl⟩ := exists_of_canonicalize recognized
        rw [languageValue_of_canonicalize listed recognized,
          languageValue_of_canonicalize listed (canonicalize_value listed)]
  · intro code recognized
    obtain ⟨language, listed, rfl⟩ := exists_of_canonicalize recognized
    obtain ⟨found, normal, -⟩ := find?_code language listed
    refine ⟨canonicalize_of_find? found normal, ⟨language, listed, rfl⟩, ?_⟩
    intro other listed' same
    rw [languageValue_of_canonicalize listed' (same ▸ recognized), same]
  · intro code recognized ends separator separates suffix
    rw [canonicalize_append ends separates, recognized]
  · intro before after blanks blanks' spelled same
    rw [canonicalize_surrounded blanks blanks', canonicalize_of_foldAscii same]

/-- The value of a tag in mixed case, with more subtags behind it or with blanks around it. -/
theorem languageValue_stable_english :
    canonicalize "eN" = some "eng" ∧ canonicalizer.languageValue "eN" = "en" ∧
      canonicalize ("eN" ++ "_" ++ "Latn-GB ") = some "eng" ∧
      Text.foldAscii "En" = Text.foldAscii "eN" ∧
      canonicalize (" " ++ "En" ++ "\u2003") = canonicalize "eN" := by
  obtain ⟨-, value, longer, around⟩ := languageValue_stable "eN"
  have recognized : canonicalize "eN" = some "eng" := by decide +kernel
  have ends : ∀ char ∈ "eN".toList.getLast?, Text.isBlank char = false := by
    rintro char ⟨⟩
    decide
  have folded : Text.foldAscii "En" = Text.foldAscii "eN" := by decide +kernel
  have english : (⟨some "en", "eng", none, "english"⟩ : Language) ∈ table := by decide +kernel
  exact ⟨recognized, (value "eng" recognized).2.2 _ english rfl,
    longer "eng" recognized ends "_" (by decide +kernel) "Latn-GB ", folded,
    around " " "\u2003" (List.all_eq_true.1 (by decide +kernel))
      (List.all_eq_true.1 (by decide +kernel)) "En" folded⟩

end Language

end WordPackage
