import Mathlib.Data.List.Basic
import Mathlib.Data.List.Induction
import WordPackage.ContentType.Manifest
import WordPackage.Proofs.Assignments

/-!
# What a manifest says

A document declares content types by its tags, and a manifest is read from them one
after another. Of the manifest that comes out this says, by the declarations alone,
which extensions are reported, which names have an override and which entries have a
content type.
-/

namespace WordPackage

/-- Each item of a list with the items before it. -/
def withEarlier {α : Type} (items : List α) : List (List α × α) :=
  items.zipIdx.map fun (item, position) => (items.take position, item)

/-- The last item has all others before it. -/
theorem withEarlier_concat {α : Type} (items : List α) (last : α) :
    withEarlier (items ++ [last]) = withEarlier items ++ [(items, last)] := by
  have before : ∀ pair ∈ items.zipIdx,
      ((items ++ [last]).take pair.2, pair.1) = (items.take pair.2, pair.1) := by
    intro pair member
    have inside := List.snd_lt_of_mem_zipIdx member
    rw [List.take_append_of_le_length (by omega)]
  rw [withEarlier, withEarlier, List.zipIdx_append, List.map_append, List.map_congr_left before]
  simp

/-- What a tag declares. A default has an extension, an override has a part name, and both have a
content type. -/
def Markup.Tag.declaration? (tag : Markup.Tag) : Option Declaration :=
  if tag.isNamed "Default" then
    match tag.attribute? "Extension", tag.attribute? "ContentType" with
    | some extension, some contentType => some (.default extension contentType)
    | _, _ => none
  else if tag.isNamed "Override" then
    match tag.attribute? "PartName", tag.attribute? "ContentType" with
    | some partName, some contentType => some (.override partName contentType)
    | _, _ => none
  else none

namespace Declaration

/-- The declarations of a document, in its order. -/
def listed (text : String) : List Declaration :=
  (Markup.Reading.ofText text).tags.filterMap Markup.Tag.declaration?

/-- The extension of a default. -/
def extension? : Declaration → Option String
  | .default extension _ => some extension
  | .override _ _ => none

/-- The part name of an override. -/
def partName? : Declaration → Option String
  | .default _ _ => none
  | .override partName _ => some partName

/-- Whether a declaration gives an entry its content type: an override has the name of the entry
with a leading slash, and a default has the extension after its last dot, whatever the ASCII
case. -/
def Covers (entry : String) : Declaration → Prop
  | .default extension _ =>
      (Text.afterLast? '.' entry).map Text.foldAscii = some (Text.foldAscii extension)
  | .override partName _ => partName = rooted entry

instance (entry : String) : (declaration : Declaration) → Decidable (declaration.Covers entry)
  | .default _ _ => inferInstanceAs (Decidable (_ = _))
  | .override _ _ => inferInstanceAs (Decidable (_ = _))

/-- The extensions that were declared before, as they are declared again. -/
def repeatedExtensions (declarations : List Declaration) : List String :=
  (withEarlier (declarations.filterMap extension?)).flatMap fun (earlier, extension) =>
    if Text.foldAscii extension ∈ earlier.map Text.foldAscii then [extension] else []

end Declaration

namespace Manifest

/-- A manifest with one more declaration. -/
def declare (manifest : Manifest) : Declaration → Manifest
  | .default extension contentType => manifest.addDefault extension contentType
  | .override partName contentType => manifest.addOverride partName contentType

/-- The manifest of declarations that are read one after another. -/
def ofDeclarations (declarations : List Declaration) : Manifest :=
  declarations.foldl declare {}

/-- A tag adds what it declares. -/
theorem addTag_eq (manifest : Manifest) (tag : Markup.Tag) :
    manifest.addTag tag = match tag.declaration? with
      | some declaration => manifest.declare declaration
      | none => manifest := by
  rw [addTag, Markup.Tag.declaration?]
  by_cases default : tag.isNamed "Default"
  · rw [if_pos default, if_pos default]
    cases tag.attribute? "Extension" <;> cases tag.attribute? "ContentType" <;> rfl
  · rw [if_neg default, if_neg default]
    by_cases override : tag.isNamed "Override"
    · rw [if_pos override, if_pos override]
      cases tag.attribute? "PartName" <;> cases tag.attribute? "ContentType" <;> rfl
    · rw [if_neg override, if_neg override]

/-- A document is read without a fault as the manifest of its declarations. -/
theorem parse_eq_ok_iff {text : String} {manifest : Manifest} :
    parse text = .ok manifest
      ↔ (Markup.Reading.ofText text).fault = none ∧
        ofDeclarations (Declaration.listed text) = manifest := by
  have folded : (Markup.Reading.ofText text).tags.foldl addTag {}
      = ofDeclarations (Declaration.listed text) := by
    rw [ofDeclarations, Declaration.listed, List.foldl_filterMap]
    congr 1
    funext manifest tag
    rw [addTag_eq]
    cases tag.declaration? <;> rfl
  rw [parse]
  cases (Markup.Reading.ofText text).fault with
  | some fault => simp
  | none => simp [folded]

/-- An entry without a content type has no override, and no default for its extension. -/
theorem contentTypeFor_eq_none_iff {manifest : Manifest} {path : String} :
    manifest.contentTypeFor path = none ↔
      rooted path ∉ manifest.overrides.keys ∧
        ∀ extension, Text.afterLast? '.' path = some extension →
          manifest.defaults.get? (Text.foldAscii extension) = none := by
  rw [← Assignments.get?_isSome_iff, Option.not_isSome_iff_eq_none, contentTypeFor]
  cases manifest.overrides.get? (rooted path) with
  | some contentType => simp
  | none => simp [Option.bind_eq_none_iff]

variable (declarations : List Declaration)

theorem ofDeclarations_concat (last : Declaration) :
    ofDeclarations (declarations ++ [last]) = (ofDeclarations declarations).declare last :=
  List.foldl_concat _ _ _ _

/-- The extensions that have a content type are those of the defaults, in small letters. -/
theorem mem_keys_defaults_ofDeclarations (extension : String) :
    extension ∈ (ofDeclarations declarations).defaults.keys
      ↔ extension ∈ (declarations.filterMap Declaration.extension?).map Text.foldAscii := by
  induction declarations using List.reverseRecOn with
  | nil => exact Iff.rfl
  | append_singleton earlier last ih =>
      rw [ofDeclarations_concat, List.filterMap_append, List.map_append, List.mem_append, ← ih]
      cases last with
      | default own contentType =>
          rw [declare, addDefault, Assignments.mem_keys_set]
          simp [Declaration.extension?, or_comm]
      | override partName contentType => simp [declare, addOverride, Declaration.extension?]

/-- The reported extensions are those that were declared before. -/
theorem duplicates_ofDeclarations :
    (ofDeclarations declarations).duplicates = Declaration.repeatedExtensions declarations := by
  -- The induction is from the back, since a declaration is a duplicate by those before it.
  induction declarations using List.reverseRecOn with
  | nil => rfl
  | append_singleton earlier last ih =>
      rw [ofDeclarations_concat, Declaration.repeatedExtensions, List.filterMap_append]
      cases last with
      | default extension contentType =>
          have known := mem_keys_defaults_ofDeclarations earlier (Text.foldAscii extension)
          rw [← Assignments.get?_isSome_iff] at known
          have one : [Declaration.default extension contentType].filterMap Declaration.extension?
              = [extension] := rfl
          rw [declare, addDefault, one, withEarlier_concat, List.flatMap_append,
            ← Declaration.repeatedExtensions, ← ih, List.flatMap_singleton]
          dsimp only
          by_cases again : Text.foldAscii extension
              ∈ (earlier.filterMap Declaration.extension?).map Text.foldAscii
          · rw [if_pos (known.2 again), if_pos again]
          · rw [if_neg (mt known.1 again), if_neg again, List.append_nil]
      | override partName contentType =>
          have none : [Declaration.override partName contentType].filterMap Declaration.extension?
              = [] := rfl
          rw [declare, addOverride, none, List.append_nil]
          exact ih

/-- The names that have an override are those of the overrides. -/
theorem mem_keys_overrides_ofDeclarations {partName : String} :
    partName ∈ (ofDeclarations declarations).overrides.keys
      ↔ partName ∈ declarations.filterMap Declaration.partName? := by
  induction declarations using List.reverseRecOn with
  | nil => exact Iff.rfl
  | append_singleton earlier last ih =>
      rw [ofDeclarations_concat, List.filterMap_append, List.mem_append, ← ih]
      cases last with
      | default extension contentType => simp [declare, addDefault, Declaration.partName?]
      | override own contentType =>
          rw [declare, addOverride, Assignments.mem_keys_set]
          simp [Declaration.partName?, or_comm]

/-- No name has two overrides. -/
theorem nodup_keys_overrides_ofDeclarations :
    (ofDeclarations declarations).overrides.keys.Nodup := by
  induction declarations using List.reverseRecOn with
  | nil => exact List.nodup_nil
  | append_singleton earlier last ih =>
      rw [ofDeclarations_concat]
      cases last with
      | default extension contentType => exact ih
      | override partName contentType => exact Assignments.nodup_keys_set ih partName contentType

/-- An entry has no content type exactly when no declaration covers it. -/
theorem contentTypeFor_ofDeclarations_eq_none_iff {entry : String} :
    (ofDeclarations declarations).contentTypeFor entry = none
      ↔ ∀ declaration ∈ declarations, ¬declaration.Covers entry := by
  rw [contentTypeFor_eq_none_iff]
  simp only [← Option.not_isSome_iff_eq_none, Assignments.get?_isSome_iff,
    mem_keys_overrides_ofDeclarations, mem_keys_defaults_ofDeclarations, List.mem_map,
    List.mem_filterMap]
  constructor
  · rintro ⟨noOverride, noDefault⟩ declaration member covers
    cases declaration with
    | default extension contentType =>
        obtain ⟨own, last, same⟩ := Option.map_eq_some_iff.1 covers
        exact noDefault own last ⟨extension, ⟨_, member, rfl⟩, same.symm⟩
    | override partName contentType => exact noOverride ⟨_, member, congrArg some covers⟩
  · intro uncovered
    constructor
    · rintro ⟨declaration, member, named⟩
      cases declaration with
      | default extension contentType => cases named
      | override partName contentType => exact uncovered _ member (Option.some.inj named)
    · rintro own last ⟨extension, ⟨declaration, member, declared⟩, same⟩
      cases declaration with
      | default other contentType =>
          obtain rfl := Option.some.inj declared
          refine uncovered _ member ?_
          rw [Declaration.Covers, last, Option.map_some, same]
      | override partName contentType => cases declared

end Manifest

end WordPackage
