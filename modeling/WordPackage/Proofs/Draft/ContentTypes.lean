import Mathlib.Data.List.Nodup
import WordPackage.Proofs.Draft.Integrity
import WordPackage.Proofs.Text.Segments

/-!
# Content types of a draft

The manifest of a draft gives its own parts their content types whatever is embedded and
whatever the lookup of content types says. The overrides are those of the parts and no
others; the two fixed defaults are declared before any resource is looked up, and an extension
is declared only once, so nothing that comes later replaces them.
-/

namespace WordPackage

namespace Draft

variable {draft : Draft}

theorem mem_names_overriddenParts_iff {path : String} :
    path ∈ draft.overriddenParts.map Prod.fst ↔ path ∈ fixedParts.map Prod.fst ∨
      ∃ part ∈ draft.optionalParts.keys, part.path = path := by
  have names : draft.overriddenParts.map Prod.fst
      = fixedParts.map Prod.fst ++ draft.optionalParts.keys.map OptionalPart.path := by
    rw [overriddenParts, List.map_append, List.map_map]
    rfl
  rw [names, List.mem_append, List.mem_map (f := OptionalPart.path)]

/-- The parts with an override have different names, and keep them with a leading slash. -/
theorem IsConsistent.nodup_overriddenParts (consistent : draft.IsConsistent) :
    ((draft.overriddenParts.map fun part => (rooted part.1, part.2)).map Prod.fst).Nodup := by
  obtain ⟨-, others, apart⟩ := List.nodup_append.1 consistent.nodup_entryNames
  obtain ⟨optional, -, -⟩ := List.nodup_append.1 others
  have fixed : (fixedParts.map Prod.fst).Nodup ∧
      ∀ path ∈ fixedParts.map Prod.fst, path ∈ fixedEntries := by decide
  have names : (draft.overriddenParts.map Prod.fst).Nodup := by
    rw [overriddenParts, List.map_append, List.map_map]
    refine List.nodup_append.2 ⟨fixed.1, optional, ?_⟩
    intro path own other supplied
    exact apart path (fixed.2 path own) other (List.mem_append_left _ supplied)
  have rootedNames : ((draft.overriddenParts.map Prod.fst).map rooted).Nodup := by
    refine List.Nodup.map_on ?_ names
    intro left leftMember right rightMember same
    rw [← (overriddenParts_spec leftMember).2.2, same, (overriddenParts_spec rightMember).2.2]
  rw [List.map_map] at rootedNames ⊢
  exact rootedNames

theorem isLiteral_contentType (part : OptionalPart) : Markup.IsLiteral part.contentType := by
  cases part with
  | numbering => exact .of_spelled rfl (by decide)
  | settings => exact .of_spelled rfl (by decide)
  | footnotes => exact .of_spelled rfl (by decide)
  | endnotes => exact .of_spelled rfl (by decide)
  | theme => exact .of_spelled rfl (by decide)

theorem isLiteral_fixedParts : ∀ part ∈ fixedParts, Markup.IsLiteral part.2 := by
  simp only [fixedParts, List.forall_mem_cons]
  exact ⟨.of_spelled rfl (by decide), .of_spelled rfl (by decide), .of_spelled rfl (by decide),
    .of_spelled rfl (by decide), .of_spelled rfl (by decide), .of_spelled rfl (by decide),
    fun _ none => nomatch none⟩

theorem isLiteral_overriddenParts {part : String × String} (member : part ∈ draft.overriddenParts) :
    Markup.IsLiteral (rooted part.1) ∧ Markup.IsLiteral part.2 := by
  have name := (overriddenParts_spec (List.mem_map_of_mem member)).2.1
  refine ⟨Markup.escaped_eq_self_iff.1 name, ?_⟩
  rcases List.mem_append.1 member with own | supplied
  · exact isLiteral_fixedParts part own
  · obtain ⟨kind, -, rfl⟩ := List.mem_map.1 supplied
    exact isLiteral_contentType kind

/-- The overrides that are read back are exactly those of the parts. -/
theorem IsConsistent.overrides_manifest (consistent : draft.IsConsistent) :
    draft.declarations.manifest.overrides
      = draft.overriddenParts.map fun part => (rooted part.1, part.2) := by
  have distinct := consistent.nodup_overriddenParts
  have declared : draft.declarations.overrides
      = draft.overriddenParts.map fun part => (rooted part.1, part.2) := by
    rw [declarations, Declarations.overrides_forPackage]
    exact Assignments.ofList_of_nodup distinct
  rw [Declarations.overrides_manifest_of_literal, declared]
  · rw [declared]
    intro pair member
    obtain ⟨part, held, rfl⟩ := List.mem_map.1 member
    exact isLiteral_overriddenParts held
  · rw [declared]
    exact distinct

/-- A part with an override has its content type. -/
theorem IsConsistent.contentTypeFor_overridden (consistent : draft.IsConsistent)
    {path contentType : String} (member : (path, contentType) ∈ draft.overriddenParts) :
    draft.declarations.manifest.contentTypeFor path = some contentType := by
  have listed : (rooted path, contentType) ∈ draft.declarations.manifest.overrides := by
    rw [consistent.overrides_manifest]
    exact List.mem_map.2 ⟨_, member, rfl⟩
  have distinct := consistent.nodup_overriddenParts
  rw [← consistent.overrides_manifest] at distinct
  have found := Assignments.get?_of_mem distinct listed
  rw [Manifest.contentTypeFor, found]

/-- A name without an override whose extension is that of a fixed default has the content type
of the default. -/
theorem contentTypeFor_fixedDefault {path last : String} {fixed : String × String}
    (relative : path.toList.head? ≠ some '/')
    (plain : path ∉ draft.overriddenParts.map Prod.fst)
    (extension : Text.afterLast? '.' path = some last) (member : fixed ∈ fixedDefaults)
    (same : Text.foldAscii last = fixed.1) :
    draft.declarations.manifest.contentTypeFor path = some fixed.2 := by
  have noOverride : draft.declarations.manifest.overrides.get? (rooted path) = none := by
    rw [← Option.not_isSome_iff_eq_none, Assignments.get?_isSome_iff, mem_keys_overrides_iff]
    rintro ⟨other, held, alike⟩
    rw [← dropLeading_rooted relative, alike, (overriddenParts_spec held).2.2] at plain
    exact plain held
  have folded : ∀ fixed ∈ fixedDefaults, Markup.escaped (Text.foldAscii fixed.1) = fixed.1 := by
    decide
  have literal : ∀ fixed ∈ fixedDefaults, Markup.IsLiteral fixed.2 := by
    simp only [fixedDefaults, List.forall_mem_cons]
    exact ⟨.of_spelled rfl (by decide), .of_spelled rfl (by decide), fun _ none => nomatch none⟩
  have apart : draft.declarations.IsDistinct := Declarations.isDistinct_forPackage _ _
  have found := apart.get?_defaults_manifest
    (Declarations.fixedDefaults_subset_forPackage _ _ member)
  rw [folded fixed member, (literal fixed member).escaped_eq] at found
  rw [Manifest.contentTypeFor, noOverride, extension, Option.bind_some, same, found]

/-- The relationship parts that every package has are found by their extension. -/
theorem contentTypeFor_relationshipPart {path : String} (own : path ∈ ownRelationshipParts) :
    draft.declarations.manifest.contentTypeFor path = some ContentType.relationships := by
  have spelled : ∀ path ∈ ownRelationshipParts, path.toList.head? ≠ some '/' ∧
      Text.afterLast? '.' path = some "rels" ∧ path ∉ fixedParts.map Prod.fst ∧
        ∀ part ∈ OptionalPart.all, part.path ≠ path := by decide
  obtain ⟨relative, extension, notFixed, notOptional⟩ := spelled path own
  have plain : path ∉ draft.overriddenParts.map Prod.fst := by
    rintro overridden
    rcases mem_names_overriddenParts_iff.1 overridden with fixed | ⟨part, -, same⟩
    · exact notFixed fixed
    · exact notOptional part (OptionalPart.mem_all part) same
  have rels : ("rels", ContentType.relationships) ∈ fixedDefaults := by decide
  exact contentTypeFor_fixedDefault relative plain extension rels (by decide)

/-- A font whose path ends as that of an obfuscated font is found by its extension. -/
theorem IsConsistent.contentTypeFor_font (consistent : draft.IsConsistent) {path : String}
    (member : path ∈ draft.fonts.paths)
    (ending : Text.endsWith (Text.foldAscii path) ".odttf" = true) :
    draft.declarations.manifest.contentTypeFor path = some ContentType.obfuscatedFont := by
  have free := consistent.fonts.notMem_reservedNames member
  obtain ⟨resource, rfl, -, -, -⟩ := consistent.fonts.related path member
  have relative : resource.path.toList.head? ≠ some '/' := by
    have below : resource.path.toList = PartName.wordDirectory.toList ++ resource.target.toList :=
      String.toList_append
    rw [below]
    exact (by decide : ¬some 'w' = some '/')
  have plain : resource.path ∉ draft.overriddenParts.map Prod.fst := by
    have reserved : ∀ path ∈ fixedParts.map Prod.fst, path ∈ reservedNames := by decide
    intro overridden
    rcases mem_names_overriddenParts_iff.1 overridden with fixed | ⟨part, -, same⟩
    · exact free (reserved _ fixed)
    · refine free (List.mem_append_right _ ?_)
      exact List.mem_map.2 ⟨part, OptionalPart.mem_all part, same⟩
  obtain ⟨last, extension, folded⟩ :=
    Text.exists_afterLast?_of_endsWith "odttf" (by decide) ending
  have odttf : ("odttf", ContentType.obfuscatedFont) ∈ fixedDefaults := by decide
  exact contentTypeFor_fixedDefault relative plain extension odttf folded

end Draft

/-- Whether a manifest gives their content types to the parts that every package has, to the given
optional parts and to the fonts under the given paths, and has overrides for those parts only. -/
structure Manifest.TypesParts (manifest : Manifest) (supplied : List OptionalPart)
    (fonts : List String) : Prop where
  fixed : ∀ part ∈ fixedParts, manifest.contentTypeFor part.1 = some part.2
  optional : ∀ part ∈ supplied, manifest.contentTypeFor part.path = some part.contentType
  relationships : ∀ path ∈ Draft.ownRelationshipParts,
    manifest.contentTypeFor path = some ContentType.relationships
  fonts : ∀ path ∈ fonts, Text.endsWith (Text.foldAscii path) ".odttf" = true →
    manifest.contentTypeFor path = some ContentType.obfuscatedFont
  overrides : manifest.overrides
    = (fixedParts ++ supplied.map fun part => (part.path, part.contentType)).map fun part =>
        (rooted part.1, part.2)

namespace Draft

variable {draft : Draft}

/-- The manifest of a consistent draft gives its parts their content types. -/
theorem IsConsistent.typesParts (consistent : draft.IsConsistent) :
    draft.declarations.manifest.TypesParts draft.optionalParts.keys draft.fonts.paths where
  fixed := by
    intro part own
    exact consistent.contentTypeFor_overridden (List.mem_append_left _ own)
  optional := by
    intro part supplied
    have overridden : (part.path, part.contentType) ∈ draft.overriddenParts :=
      List.mem_append_right _ (List.mem_map.2 ⟨part, supplied, rfl⟩)
    exact consistent.contentTypeFor_overridden overridden
  relationships := fun _ own => contentTypeFor_relationshipPart own
  fonts := fun _ member ending => consistent.contentTypeFor_font member ending
  overrides := consistent.overrides_manifest

/-- Whatever operations led to a draft, and whatever lookup of content types they put in place, its
manifest is read without a fault and gives its content type to each part that every package has, to
each optional part that was supplied and to each obfuscated font; it has overrides for those parts
only. -/
theorem contentTypesPart_typesParts (settings : Settings) (operations : List Operation) :
    ∃ manifest, Manifest.parse ((ofSettings settings).run operations).contentTypesPart
        = .ok manifest ∧
      manifest.TypesParts ((ofSettings settings).run operations).optionalParts.keys
        ((ofSettings settings).run operations).fonts.paths ∧
      ∀ part, part ∈ ((ofSettings settings).run operations).optionalParts.keys ↔
        ∃ text, .setOptionalPart part text ∈ operations := by
  have consistent := (IsConsistent.ofSettings settings).run operations
  refine ⟨_, Declarations.parse_part _ _, consistent.typesParts, ?_⟩
  intro part
  constructor
  · intro held
    obtain ⟨⟨kind, text⟩, member, rfl⟩ := List.mem_map.1 held
    obtain ⟨before, operation, performed, records⟩ :=
      exists_of_mem_contents (optionalParts_run settings operations) member
    cases operation with
    | setOptionalPart kind text =>
        obtain ⟨rfl, rfl⟩ := Prod.mk.inj (Option.some.inj records)
        exact ⟨text, performed⟩
    | _ => cases records
  · rintro ⟨text, supplied⟩
    exact mem_keys_optionalParts_run supplied

end Draft

end WordPackage
