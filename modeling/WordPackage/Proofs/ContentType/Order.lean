import WordPackage.Proofs.ContentType.Requests

/-!
# Manifests of declarations made in any order

However content types are requested, none is declared twice, neither for an extension nor for a
part, and the reader finds none declared twice. Two packages with the same parts and the same
resources, listed in any order and any number of times, are read as manifests that agree, although
they spell and order their extensions by the resource that came first.
-/

namespace WordPackage

/-- Whether two manifests give the same content types to extensions and to parts. -/
structure Manifest.Agrees (left right : Manifest) : Prop where
  defaults : ∀ extension, left.defaults.get? extension = right.defaults.get? extension
  overrides : left.overrides = right.overrides

namespace Declarations

variable {declarations left right : Declarations}

theorem filterMap_extension?_entries :
    declarations.entries.filterMap Declaration.extension? = declarations.defaults.map Prod.fst := by
  rw [entries, List.filterMap_append, List.filterMap_map, List.filterMap_map]
  have named : (Declaration.extension? ∘ fun pair : String × String =>
      .default pair.1 pair.2) = some ∘ Prod.fst := rfl
  have unnamed : (Declaration.extension? ∘ fun pair : String × String =>
      .override pair.1 pair.2) = fun _ => none := rfl
  rw [named, unnamed, List.filterMap_eq_map, List.filterMap_none, List.append_nil]

theorem filterMap_partName?_entries :
    declarations.entries.filterMap Declaration.partName? = declarations.overrides.keys := by
  rw [entries, List.filterMap_append, List.filterMap_map, List.filterMap_map]
  have unnamed : (Declaration.partName? ∘ fun pair : String × String =>
      .default pair.1 pair.2) = fun _ => none := rfl
  have named : (Declaration.partName? ∘ fun pair : String × String =>
      .override pair.1 pair.2) = some ∘ Prod.fst := rfl
  rw [named, unnamed, List.filterMap_eq_map, List.filterMap_none, List.nil_append, Assignments.keys]

/-- What is read agrees where the declared extensions agree and the overrides are the same. -/
theorem IsDistinct.agrees_manifest (leftApart : left.IsDistinct) (rightApart : right.IsDistinct)
    (extensions : ∀ folded, left.byExtension.get? folded = right.byExtension.get? folded)
    (overrides : left.overrides = right.overrides) : left.manifest.Agrees right.manifest where
  defaults := by
    intro key
    by_cases written : ∃ folded, Markup.escaped folded = key
    · obtain ⟨folded, rfl⟩ := written
      rw [leftApart.get?_escaped_manifest, rightApart.get?_escaped_manifest, extensions]
    · rw [not_exists] at written
      rw [leftApart.get?_unwritten_manifest written,
        rightApart.get?_unwritten_manifest written]
  overrides := by
    simp only [manifest, Manifest.overrides_addOverrides, Manifest.overrides_addDefaults, overrides]

/-- What a package declares for an extension depends on which resources it has, not on their
order. -/
theorem packageDefault?_congr {first second : List String}
    (same : ∀ name, name ∈ first ↔ name ∈ second) (mime : MimeLookup) (folded : String) :
    packageDefault? first mime folded = packageDefault? second mime folded := by
  simp only [packageDefault?, same]

/-- However content types are requested, no two written extensions are equal up to ASCII case, no
two written part names are equal, and the manifest is read with none declared twice. Packages with
the same parts and the same resources, in whatever order and however often listed, are read as
manifests that agree. -/
theorem reads_alike_in_any_order :
    (∀ (requests : List Request) (layout : Markup.Layout),
      (((run {} requests).entries.filterMap Declaration.extension?).map Text.foldAscii).Nodup ∧
      ((run {} requests).entries.filterMap Declaration.partName?).Nodup ∧
      ∃ manifest, Manifest.parse ((run {} requests).part layout) = .ok manifest ∧
        manifest.duplicates = []) ∧
    (∀ (table : MimeTable) (parts : List (String × String)) (first second : List String),
      (∀ name, name ∈ first ↔ name ∈ second) →
      ∀ firstLayout secondLayout : Markup.Layout, ∃ firstManifest secondManifest,
        Manifest.parse ((forPackage parts first table.lookup).part firstLayout)
          = .ok firstManifest ∧
        Manifest.parse ((forPackage parts second table.lookup).part secondLayout)
          = .ok secondManifest ∧
        firstManifest.Agrees secondManifest) := by
  constructor
  · intro requests layout
    have apart := IsDistinct.empty.run requests
    have bare : ({} : Declarations).overrides.keys.Nodup := List.nodup_nil
    refine ⟨?_, ?_, _, parse_part _ layout, apart.duplicates_manifest⟩
    · rw [filterMap_extension?_entries, List.map_map]
      exact apart.distinct
    · rw [filterMap_partName?_entries]
      exact nodup_overrides_run bare requests
  · intro table parts first second same firstLayout secondLayout
    have caseless := table.isCaseless_lookup
    refine ⟨_, _, parse_part _ firstLayout, parse_part _ secondLayout, ?_⟩
    -- The defaults depend on the names by membership only, and the overrides not at all.
    refine (isDistinct_forPackage parts first).agrees_manifest
      (isDistinct_forPackage parts second) ?_ ?_
    · intro folded
      rw [get?_byExtension_forPackage parts first caseless,
        get?_byExtension_forPackage parts second caseless, packageDefault?_congr same]
    · rw [overrides_forPackage, overrides_forPackage]

/-- Two lists of the same resources, one of which repeats and reorders them. -/
theorem reads_alike_repeated : ∃ first second,
    Manifest.parse ((forPackage [] ["a.BMP", "b.bmp"] (MimeTable.lookup {})).part .compact)
      = .ok first ∧
    Manifest.parse ((forPackage [] ["b.bmp", "a.BMP", "b.bmp"] (MimeTable.lookup {})).part .compact)
      = .ok second ∧
    first.Agrees second :=
  reads_alike_in_any_order.2 {} [] _ _ (by simp [or_comm]) _ _

end Declarations

end WordPackage
