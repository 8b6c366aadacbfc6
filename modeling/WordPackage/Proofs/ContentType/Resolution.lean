import WordPackage.Proofs.ContentType.Requests

/-!
# Resolving a resource in the manifest

What a package declares for the extension of a resource is what the manifest resolves for the
resource, under its name as that is written: the reader leaves the entities in what it reads, and a
name without a dot has no extension for it. Under its name as it is, a resource is resolved as the
lookup has it where nothing needs an entity.
-/

namespace WordPackage

open Markup (escaped IsLiteral)

namespace Declarations

variable {table : MimeTable} {parts : List (String × String)} {resources : List String}
  {name : String}

theorem afterLast?_eq_extensionOf (dotted : '.' ∈ name.toList) :
    Text.afterLast? '.' name = some (extensionOf name) := by
  obtain ⟨front, back, -, -, found⟩ := Text.exists_afterLast?_of_mem dotted
  rw [extensionOf, found, Option.getD_some]

/-- The extension of a name that is written as it is is written so too. -/
theorem isLiteral_extensionOf (literal : IsLiteral name) : IsLiteral (extensionOf name) := by
  by_cases dotted : '.' ∈ name.toList
  · obtain ⟨front, back, split, -, found⟩ := Text.exists_afterLast?_of_mem dotted
    rw [extensionOf, found, Option.getD_some, IsLiteral, String.toList_ofList]
    intro char member
    refine literal char ?_
    rw [split]
    exact List.mem_append_right _ (List.mem_cons_of_mem _ member)
  · rw [extensionOf, Text.afterLast?_of_notMem dotted, Option.getD_none]
    exact literal

theorem isLiteral_foldAscii_iff {extension : String} :
    IsLiteral (Text.foldAscii extension) ↔ IsLiteral extension := by
  simp only [IsLiteral, Text.toList_foldAscii, List.forall_mem_map, Markup.isSpecial_toLower]

theorem isLiteral_of_own {folded : String}
    (own : folded ∈ fixedDefaults.map Prod.fst ∨ folded ∈ guessedExtensions) :
    IsLiteral folded := by
  have literal : ∀ folded ∈ fixedDefaults.map Prod.fst ++ guessedExtensions, IsLiteral folded := by
    decide
  exact literal folded (List.mem_append.2 own)

/-- A package declares the extension of each of its resources as the lookup has it, unless its
content type is fixed. -/
theorem packageDefault?_of_listed (listed : name ∈ resources)
    (unfixed : Text.foldAscii (extensionOf name) ∉ fixedDefaults.map Prod.fst) :
    packageDefault? resources table.lookup (Text.foldAscii (extensionOf name))
      = table.lookup (extensionOf name) := by
  have absent : Assignments.get? (Text.foldAscii (extensionOf name)) fixedDefaults = none := by
    rw [← Option.not_isSome_iff_eq_none, Assignments.get?_isSome_iff]
    exact unfixed
  rw [packageDefault?, absent, Option.none_or, if_pos (.inr ⟨name, listed, rfl⟩)]
  exact table.isCaseless_lookup _ _ (Text.foldAscii_foldAscii _)

/-- A package declares no extensions but its own and those of its resources. -/
theorem exists_of_packageDefault? {folded contentType : String} {mime : MimeLookup}
    (declared : packageDefault? resources mime folded = some contentType) :
    (folded ∈ fixedDefaults.map Prod.fst ∨ folded ∈ guessedExtensions) ∨
      ∃ other ∈ resources, Text.foldAscii (extensionOf other) = folded := by
  rcases Option.or_eq_some_iff.1 declared with fixed | ⟨-, looked⟩
  · left
    left
    rw [← Assignments.keys, ← Assignments.get?_isSome_iff, fixed]
    rfl
  · split at looked
    · rename_i known
      exact known.imp_left .inr
    · cases looked

/-- Whether what is written for a package is not mistaken for a name: no part is written as the
name is, and no extension of a resource but its own is written as its extension is. -/
structure IsUnmistaken (parts : List (String × String)) (resources : List String)
    (name : String) : Prop where
  part : ∀ part ∈ parts, escaped (rooted part.1) ≠ rooted name
  extension : ∀ other ∈ resources,
    escaped (Text.foldAscii (extensionOf other)) = Text.foldAscii (extensionOf name) →
      Text.foldAscii (extensionOf other) = Text.foldAscii (extensionOf name)

/-- A name that is written as it is is mistaken for no other. -/
theorem IsUnmistaken.of_isLiteral (literal : IsLiteral name)
    (apart : ∀ part ∈ parts, rooted part.1 ≠ rooted name) :
    IsUnmistaken parts resources name where
  part := by
    intro part member same
    rw [← escaped_rooted literal] at same
    exact apart part member (Markup.escaped_injective same)
  extension := by
    intro other _ same
    have plain : IsLiteral (Text.foldAscii (extensionOf name)) := by
      rw [isLiteral_foldAscii_iff]
      exact isLiteral_extensionOf literal
    rw [← plain.escaped_eq] at same
    exact Markup.escaped_injective same

/-- Where no part is written as a name is, the name is resolved by its extension. -/
theorem contentTypeFor_manifest_of_unoverridden
    (apart : ∀ part ∈ parts, escaped (rooted part.1) ≠ rooted name) :
    (forPackage parts resources table.lookup).manifest.contentTypeFor name =
      (Text.afterLast? '.' name).bind fun extension =>
        (forPackage parts resources table.lookup).manifest.defaults.get?
          (Text.foldAscii extension) := by
  have unoverridden :
      (forPackage parts resources table.lookup).manifest.overrides.get? (rooted name) = none := by
    rw [← Option.not_isSome_iff_eq_none, Assignments.get?_isSome_iff, mem_keys_overrides_manifest,
      overrides_forPackage, Assignments.keys_ofList]
    rintro ⟨declared, member, same⟩
    rw [List.mem_eraseDups, List.map_map] at member
    obtain ⟨part, held, rfl⟩ := List.mem_map.1 member
    exact apart part held same.symm
  rw [Manifest.contentTypeFor, unoverridden]

variable (table parts resources) in
theorem get?_escaped_manifest_forPackage (folded : String) :
    (forPackage parts resources table.lookup).manifest.defaults.get? (escaped folded)
      = (packageDefault? resources table.lookup folded).map escaped := by
  rw [(isDistinct_forPackage parts resources).get?_escaped_manifest,
    get?_byExtension_forPackage parts resources table.isCaseless_lookup]

section Listed

variable (listed : name ∈ resources)
  (unfixed : Text.foldAscii (extensionOf name) ∉ fixedDefaults.map Prod.fst)
include listed unfixed

/-- The extension of a resource has the written content type if it is written as it is, and none if
it is not, unless it is mistaken. -/
theorem get?_manifest_of_isUnmistaken (unmistaken : IsUnmistaken parts resources name) :
    (forPackage parts resources table.lookup).manifest.defaults.get?
        (Text.foldAscii (extensionOf name)) =
      if IsLiteral (extensionOf name) then (table.lookup (extensionOf name)).map escaped
      else none := by
  by_cases literal : IsLiteral (extensionOf name)
  · have plain := (isLiteral_foldAscii_iff.2 literal).escaped_eq
    have found := get?_escaped_manifest_forPackage table parts resources
      (Text.foldAscii (extensionOf name))
    rw [plain, packageDefault?_of_listed listed unfixed] at found
    rw [if_pos literal, found]
  · rw [if_neg literal]
    have apart : (forPackage parts resources table.lookup).IsDistinct :=
      isDistinct_forPackage parts resources
    by_cases written : ∃ folded, escaped folded = Text.foldAscii (extensionOf name)
    · -- Nothing is declared for what would be written as the extension stands: it is special, as
      -- the extension is, so it is no extension of its own and that of no other resource.
      obtain ⟨folded, same⟩ := written
      have special : ¬IsLiteral folded := by
        intro plain
        rw [plain.escaped_eq] at same
        exact literal (isLiteral_foldAscii_iff.1 (same ▸ plain))
      rw [← same, get?_escaped_manifest_forPackage, Option.map_eq_none_iff,
        Option.eq_none_iff_forall_ne_some]
      intro contentType declared
      rcases exists_of_packageDefault? declared with own | ⟨other, member, rfl⟩
      · exact special (isLiteral_of_own own)
      · have alike := unmistaken.extension other member same
        rw [← alike] at same
        exact special (Markup.escaped_eq_self_iff.1 same)
    · exact apart.get?_unwritten_manifest (not_exists.1 written)

/-- A resource is resolved, under its name as it is written, as what is written for the content type
that the lookup has for its extension, and as none if it has no dot. -/
theorem contentTypeFor_escaped_manifest (apart : ∀ part ∈ parts, rooted part.1 ≠ rooted name) :
    (forPackage parts resources table.lookup).manifest.contentTypeFor (escaped name) =
      if '.' ∈ name.toList then (table.lookup (extensionOf name)).map escaped else none := by
  have unwritten : ∀ part ∈ parts, escaped (rooted part.1) ≠ rooted (escaped name) := by
    intro part member same
    rw [rooted_escaped] at same
    exact apart part member (Markup.escaped_injective same)
  rw [contentTypeFor_manifest_of_unoverridden unwritten,
    Markup.isSeparator_dot.afterLast?_escaped]
  by_cases dotted : '.' ∈ name.toList
  · rw [if_pos dotted, afterLast?_eq_extensionOf dotted, Option.map_some, Option.bind_some,
      Markup.foldAscii_escaped, get?_escaped_manifest_forPackage,
      packageDefault?_of_listed listed unfixed]
  · rw [if_neg dotted, Text.afterLast?_of_notMem dotted, Option.map_none, Option.bind_none]

/-- A resource is resolved, under its name as it is, as the lookup has it exactly when the lookup
knows no content type or there is a dot and nothing needs an entity, unless it is mistaken. -/
theorem contentTypeFor_manifest_eq_lookup_iff
    (unmistaken : IsUnmistaken parts resources name) :
    (forPackage parts resources table.lookup).manifest.contentTypeFor name
        = table.lookup (extensionOf name) ↔
      ∀ contentType, table.lookup (extensionOf name) = some contentType →
        '.' ∈ name.toList ∧ IsLiteral (extensionOf name) ∧ IsLiteral contentType := by
  rw [contentTypeFor_manifest_of_unoverridden unmistaken.part]
  by_cases dotted : '.' ∈ name.toList
  · rw [afterLast?_eq_extensionOf dotted, Option.bind_some,
      get?_manifest_of_isUnmistaken listed unfixed unmistaken]
    cases table.lookup (extensionOf name) with
    | none => simp
    | some contentType =>
        by_cases literal : IsLiteral (extensionOf name)
        · simp [dotted, literal, Markup.escaped_eq_self_iff]
        · simp [literal]
  · rw [Text.afterLast?_of_notMem dotted, Option.bind_none]
    cases table.lookup (extensionOf name) with
    | none => simp
    | some contentType => simp [dotted]

end Listed

/-- A resource that is not one of the parts and whose extension is not one of the fixed ones is
resolved, under its name as it is written, as what is written for the content type that the lookup
has for its extension, if the name has a dot, and as none if it has no dot. Where what is written is
not mistaken for it, the resource is resolved under its name as the lookup has it exactly when the
lookup knows no content type or the name has a dot and neither its extension nor the content type
needs an entity. -/
theorem resolves_listed_resource (table : MimeTable) (parts : List (String × String))
    (resources : List String) (layout : Markup.Layout) {name : String}
    (listed : name ∈ resources) (apart : ∀ part ∈ parts, rooted part.1 ≠ rooted name)
    (unfixed : Text.foldAscii (extensionOf name) ∉ fixedDefaults.map Prod.fst) :
    ∃ manifest,
      Manifest.parse ((forPackage parts resources table.lookup).part layout) = .ok manifest ∧
      manifest.contentTypeFor (escaped name) =
        (if '.' ∈ name.toList then (table.lookup (extensionOf name)).map escaped else none) ∧
      (IsUnmistaken parts resources name →
        (manifest.contentTypeFor name = table.lookup (extensionOf name) ↔
          ∀ contentType, table.lookup (extensionOf name) = some contentType →
            '.' ∈ name.toList ∧ IsLiteral (extensionOf name) ∧ IsLiteral contentType)) := by
  refine ⟨_, parse_part _ layout, contentTypeFor_escaped_manifest listed unfixed apart, ?_⟩
  exact fun unmistaken => contentTypeFor_manifest_eq_lookup_iff listed unfixed unmistaken

/-- An image is resolved whatever the ASCII case of its extension. -/
theorem resolves_listed_image : ∃ manifest,
    Manifest.parse ((forPackage [("word/document.xml", "t")] ["word/media/a.PNG"]
      (MimeTable.lookup {})).part .compact) = .ok manifest ∧
    manifest.contentTypeFor "word/media/a.PNG" = some "image/png" := by
  have apart : ∀ part ∈ [("word/document.xml", "t")], rooted part.1 ≠ rooted "word/media/a.PNG" := by
    decide
  have literal : IsLiteral "word/media/a.PNG" := by decide
  obtain ⟨manifest, read, -, resolved⟩ := resolves_listed_resource {} [("word/document.xml", "t")]
    ["word/media/a.PNG"] .compact (List.mem_singleton_self _) apart (by decide)
  refine ⟨manifest, read, ?_⟩
  have known : MimeTable.lookup {} (extensionOf "word/media/a.PNG") = some "image/png" := by decide
  rw [(resolved (.of_isLiteral literal apart)).2, known]
  intro contentType same
  rw [known, Option.some.injEq] at same
  subst same
  decide

/-- An extension that was added with a character that needs an entity is declared and not
resolved. -/
theorem not_resolves_special_extension :
    Text.foldAscii (extensionOf "x.a&b") ∉ fixedDefaults.map Prod.fst ∧ ∃ manifest,
      Manifest.parse ((forPackage [] ["x.a&b"]
        (({} : MimeTable).withType "a&b" "t/x").lookup).part .compact) = .ok manifest ∧
      manifest.contentTypeFor "x.a&b"
        ≠ (({} : MimeTable).withType "a&b" "t/x").lookup (extensionOf "x.a&b") :=
  ⟨by decide, _, parse_part _ _, by decide⟩

end Declarations

end WordPackage
