import WordPackage.ContentType.Declarations
import WordPackage.Proofs.Assignments

/-!
# Declarations of a package

Declarations are collected so that no extension is declared twice, and so that
an extension that was considered in vain is one that the lookup does not know.
The second needs a lookup that ignores ASCII case, as that of every table does.
-/

namespace WordPackage

/-- Whether a lookup gives one answer for extensions that differ in ASCII case only. -/
def MimeLookup.IsCaseless (mime : MimeLookup) : Prop :=
  ∀ left right, Text.foldAscii left = Text.foldAscii right → mime left = mime right

theorem MimeTable.isCaseless_lookup (table : MimeTable) : MimeLookup.IsCaseless table.lookup := by
  intro left right same
  simp only [lookup, same]

namespace Declarations

variable {declarations earlier later : Declarations} {mime : MimeLookup}

/-- The declared extensions in small letters. -/
def extensions (declarations : Declarations) : List String :=
  declarations.defaults.map fun pair => Text.foldAscii pair.1

theorem addDefault_of_new {extension : String}
    (new : Text.foldAscii extension ∉ declarations.considered) (contentType : String) :
    (declarations.addDefault extension contentType).2
      = { declarations with
          considered := Text.foldAscii extension :: declarations.considered
          defaults := declarations.defaults ++ [(extension, contentType)] } := by
  simp [addDefault, hasConsidered, new, consider]

theorem addDefault_of_considered {extension : String}
    (known : Text.foldAscii extension ∈ declarations.considered) (contentType : String) :
    (declarations.addDefault extension contentType).2 = declarations := by
  simp [addDefault, hasConsidered, known]

/-- Looking an extension up either does nothing, or declares it, or only notes that it is
unknown. -/
theorem addExtension_cases (declarations : Declarations) (extension : String)
    (mime : MimeLookup) :
    (Text.foldAscii extension ∈ declarations.considered ∧
      (declarations.addExtension extension mime).2 = declarations) ∨
    (Text.foldAscii extension ∉ declarations.considered ∧
      ((∃ contentType, (declarations.addExtension extension mime).2
          = (declarations.addDefault extension contentType).2) ∨
        (mime extension = none ∧
          (declarations.addExtension extension mime).2 = declarations.consider extension))) := by
  by_cases known : Text.foldAscii extension ∈ declarations.considered
  · left
    exact ⟨known, by simp [addExtension, hasConsidered, known]⟩
  · right
    refine ⟨known, ?_⟩
    cases looked : mime extension with
    | none => exact .inr ⟨rfl, by simp [addExtension, hasConsidered, known, looked]⟩
    | some contentType =>
        exact .inl ⟨contentType, by simp [addExtension, hasConsidered, known, looked]⟩

/-- After a declaration its extension was considered. -/
theorem mem_considered_addDefault {extension contentType folded : String} :
    folded ∈ (declarations.addDefault extension contentType).2.considered ↔
      folded = Text.foldAscii extension ∨ folded ∈ declarations.considered := by
  by_cases known : Text.foldAscii extension ∈ declarations.considered
  · rw [addDefault_of_considered known]
    constructor
    · exact .inr
    · rintro (rfl | member)
      · exact known
      · exact member
  · rw [addDefault_of_new known]
    exact List.mem_cons

/-- After an extension was looked up it was considered. -/
theorem mem_considered_addExtension {extension folded : String} :
    folded ∈ (declarations.addExtension extension mime).2.considered ↔
      folded = Text.foldAscii extension ∨ folded ∈ declarations.considered := by
  rcases declarations.addExtension_cases extension mime with
    ⟨known, same⟩ | ⟨-, ⟨contentType, same⟩ | ⟨-, same⟩⟩
  · rw [same]
    constructor
    · exact .inr
    · rintro (rfl | member)
      · exact known
      · exact member
  · rw [same]
    exact mem_considered_addDefault
  · rw [same]
    exact List.mem_cons

/-- After extensions were looked up, they and the earlier ones were considered. -/
theorem mem_considered_foldl {β : Type} (extension : β → String) (items : List β)
    {folded : String} :
    folded ∈ (items.foldl (fun declarations item =>
        (declarations.addExtension (extension item) mime).2) declarations).considered ↔
      (∃ item ∈ items, folded = Text.foldAscii (extension item)) ∨
        folded ∈ declarations.considered := by
  induction items generalizing declarations with
  | nil => simp
  | cons item rest ih =>
      rw [List.foldl_cons, ih, mem_considered_addExtension]
      simp only [List.mem_cons, exists_eq_or_imp]
      rw [or_assoc, or_left_comm]

/-- Whether declarations go on from earlier ones: the overrides are the same, and nothing that
was declared is lost. -/
structure Continues (later earlier : Declarations) : Prop where
  overrides : later.overrides = earlier.overrides
  extensions : ∀ folded ∈ earlier.extensions, folded ∈ later.extensions

namespace Continues

theorem refl (declarations : Declarations) : declarations.Continues declarations :=
  ⟨rfl, fun _ member => member⟩

theorem trans {last : Declarations} (second : last.Continues later)
    (first : later.Continues earlier) : last.Continues earlier where
  overrides := second.overrides.trans first.overrides
  extensions := fun folded member => second.extensions folded (first.extensions folded member)

theorem addDefault (declarations : Declarations) (extension contentType : String) :
    (declarations.addDefault extension contentType).2.Continues declarations := by
  by_cases known : Text.foldAscii extension ∈ declarations.considered
  · rw [addDefault_of_considered known]
    exact refl declarations
  · rw [addDefault_of_new known]
    refine ⟨rfl, fun folded member => ?_⟩
    rw [Declarations.extensions, List.map_append]
    exact List.mem_append_left _ member

theorem addExtension (declarations : Declarations) (extension : String) (mime : MimeLookup) :
    (declarations.addExtension extension mime).2.Continues declarations := by
  rcases declarations.addExtension_cases extension mime with
    ⟨-, same⟩ | ⟨-, ⟨contentType, same⟩ | ⟨-, same⟩⟩
  · rw [same]
    exact refl declarations
  · rw [same]
    exact addDefault declarations extension contentType
  · rw [same]
    exact ⟨rfl, fun _ member => member⟩

theorem foldl {β : Type} {step : Declarations → β → Declarations}
    (steps : ∀ declarations item, (step declarations item).Continues declarations)
    (declarations : Declarations) (items : List β) :
    (items.foldl step declarations).Continues declarations := by
  induction items generalizing declarations with
  | nil => exact refl declarations
  | cons item rest ih => exact (ih _).trans (steps declarations item)

end Continues

theorem mem_defaults_addDefault {pair : String × String} (member : pair ∈ declarations.defaults)
    (extension contentType : String) :
    pair ∈ (declarations.addDefault extension contentType).2.defaults := by
  by_cases known : Text.foldAscii extension ∈ declarations.considered
  · rw [addDefault_of_considered known]
    exact member
  · rw [addDefault_of_new known]
    exact List.mem_append_left _ member

/-- What was declared for an extension stays declared when another is looked up. -/
theorem mem_defaults_addExtension {pair : String × String} (member : pair ∈ declarations.defaults)
    (extension : String) (mime : MimeLookup) :
    pair ∈ (declarations.addExtension extension mime).2.defaults := by
  rcases declarations.addExtension_cases extension mime with
    ⟨-, same⟩ | ⟨-, ⟨contentType, same⟩ | ⟨-, same⟩⟩
  · rw [same]
    exact member
  · rw [same]
    exact mem_defaults_addDefault member extension contentType
  · rw [same]
    exact member

/-- What every step keeps declared stays declared. -/
theorem mem_defaults_foldl {β : Type} {step : Declarations → β → Declarations}
    {pair : String × String}
    (steps : ∀ declarations item, pair ∈ declarations.defaults →
      pair ∈ (step declarations item).defaults)
    (member : pair ∈ declarations.defaults) (items : List β) :
    pair ∈ (items.foldl step declarations).defaults := by
  induction items generalizing declarations with
  | nil => exact member
  | cons item rest ih => exact ih (steps declarations item member)

/-- Pairs with different extensions that were not considered are all declared. -/
theorem subset_defaults_foldl_addDefault {pairs : List (String × String)}
    (distinct : (pairs.map fun pair => Text.foldAscii pair.1).Nodup)
    (new : ∀ pair ∈ pairs, Text.foldAscii pair.1 ∉ declarations.considered) :
    pairs ⊆ (pairs.foldl (fun declarations pair =>
      (declarations.addDefault pair.1 pair.2).2) declarations).defaults := by
  induction pairs generalizing declarations with
  | nil => exact List.nil_subset _
  | cons first rest ih =>
      rw [List.map_cons, List.nodup_cons] at distinct
      rw [List.foldl_cons, List.cons_subset]
      constructor
      · refine mem_defaults_foldl (fun _ pair member => mem_defaults_addDefault member _ _) ?_ rest
        rw [addDefault_of_new (new first List.mem_cons_self)]
        exact List.mem_append_right _ List.mem_cons_self
      · refine ih distinct.2 ?_
        intro pair later considered
        rcases mem_considered_addDefault.1 considered with same | earlier
        · exact distinct.1 (List.mem_map.2 ⟨pair, later, same⟩)
        · exact new pair (List.mem_cons_of_mem _ later) earlier

/-- Whether each extension is declared once, after it was considered. -/
structure IsDistinct (declarations : Declarations) : Prop where
  distinct : declarations.extensions.Nodup
  considered : ∀ folded ∈ declarations.extensions, folded ∈ declarations.considered

namespace IsDistinct

theorem empty : ({} : Declarations).IsDistinct :=
  ⟨List.nodup_nil, fun _ member => nomatch member⟩

theorem addOverride (apart : declarations.IsDistinct) (partName contentType : String) :
    (declarations.addOverride partName contentType).IsDistinct :=
  ⟨apart.distinct, apart.considered⟩

theorem consider (apart : declarations.IsDistinct) (extension : String) :
    (declarations.consider extension).IsDistinct :=
  ⟨apart.distinct, fun folded member => List.mem_cons_of_mem _ (apart.considered folded member)⟩

theorem addDefault (apart : declarations.IsDistinct) (extension contentType : String) :
    (declarations.addDefault extension contentType).2.IsDistinct := by
  by_cases known : Text.foldAscii extension ∈ declarations.considered
  · rw [addDefault_of_considered known]
    exact apart
  · rw [addDefault_of_new known]
    constructor
    · rw [extensions, List.map_append]
      refine List.nodup_append.2 ⟨apart.distinct, by simp, ?_⟩
      rintro folded member _ last rfl
      rw [List.map_singleton, List.mem_singleton] at last
      exact known (last ▸ apart.considered folded member)
    · intro folded member
      rw [extensions, List.map_append, List.map_singleton, List.mem_append,
        List.mem_singleton] at member
      rcases member with earlier | rfl
      · exact List.mem_cons_of_mem _ (apart.considered folded earlier)
      · exact List.mem_cons_self

theorem addExtension (apart : declarations.IsDistinct) (extension : String) (mime : MimeLookup) :
    (declarations.addExtension extension mime).2.IsDistinct := by
  rcases declarations.addExtension_cases extension mime with
    ⟨-, same⟩ | ⟨-, ⟨contentType, same⟩ | ⟨-, same⟩⟩
  · rw [same]
    exact apart
  · rw [same]
    exact apart.addDefault extension contentType
  · rw [same]
    exact apart.consider extension

theorem foldl {β : Type} {step : Declarations → β → Declarations}
    (steps : ∀ declarations item, declarations.IsDistinct → (step declarations item).IsDistinct)
    (apart : declarations.IsDistinct) (items : List β) :
    (items.foldl step declarations).IsDistinct := by
  induction items generalizing declarations with
  | nil => exact apart
  | cons item rest ih => exact ih (steps declarations item apart)

end IsDistinct

/-- Whether each extension is declared once, and each that was considered is declared or not
known to the lookup. -/
structure IsOrderly (declarations : Declarations) (mime : MimeLookup) : Prop where
  distinct : declarations.extensions.Nodup
  considered : ∀ folded ∈ declarations.extensions, folded ∈ declarations.considered
  decided : ∀ folded ∈ declarations.considered, folded ∈ declarations.extensions ∨
    ∀ extension, Text.foldAscii extension = folded → mime extension = none

namespace IsOrderly

theorem isDistinct (orderly : declarations.IsOrderly mime) : declarations.IsDistinct :=
  ⟨orderly.distinct, orderly.considered⟩

theorem empty (mime : MimeLookup) : ({} : Declarations).IsOrderly mime where
  distinct := List.nodup_nil
  considered := fun _ member => nomatch member
  decided := fun _ member => nomatch member

theorem addOverride (orderly : declarations.IsOrderly mime) (partName contentType : String) :
    (declarations.addOverride partName contentType).IsOrderly mime :=
  ⟨orderly.distinct, orderly.considered, orderly.decided⟩

theorem addDefault (orderly : declarations.IsOrderly mime) (extension contentType : String) :
    (declarations.addDefault extension contentType).2.IsOrderly mime := by
  have apart := orderly.isDistinct.addDefault extension contentType
  refine ⟨apart.distinct, apart.considered, ?_⟩
  by_cases known : Text.foldAscii extension ∈ declarations.considered
  · rw [addDefault_of_considered known]
    exact orderly.decided
  · rw [addDefault_of_new known]
    have appended : ∀ folded,
        folded ∈ (declarations.defaults ++ [(extension, contentType)]).map
          (fun pair => Text.foldAscii pair.1) ↔
        folded ∈ declarations.extensions ∨ folded = Text.foldAscii extension := by
      intro folded
      rw [List.map_append, List.mem_append, List.map_singleton, List.mem_singleton]
      rfl
    intro folded member
    rcases List.mem_cons.1 member with rfl | earlier
    · exact .inl ((appended _).2 (.inr rfl))
    · exact (orderly.decided folded earlier).imp_left fun declared =>
        (appended folded).2 (.inl declared)

theorem addExtension (orderly : declarations.IsOrderly mime) (caseless : mime.IsCaseless)
    (extension : String) : (declarations.addExtension extension mime).2.IsOrderly mime := by
  rcases declarations.addExtension_cases extension mime with
    ⟨-, same⟩ | ⟨-, ⟨contentType, same⟩ | ⟨unknown, same⟩⟩
  · rw [same]
    exact orderly
  · rw [same]
    exact orderly.addDefault extension contentType
  · rw [same]
    have apart := orderly.isDistinct.consider extension
    refine ⟨apart.distinct, apart.considered, ?_⟩
    intro folded member
    rcases List.mem_cons.1 member with rfl | earlier
    · right
      intro other alike
      rw [caseless other extension alike, unknown]
    · exact orderly.decided folded earlier

theorem foldl {β : Type} {step : Declarations → β → Declarations}
    (steps : ∀ declarations item, declarations.IsOrderly mime →
      (step declarations item).IsOrderly mime)
    (orderly : declarations.IsOrderly mime) (items : List β) :
    (items.foldl step declarations).IsOrderly mime := by
  induction items generalizing declarations with
  | nil => exact orderly
  | cons item rest ih => exact ih (steps declarations item orderly)

end IsOrderly

section Package

variable (parts : List (String × String)) (resources : List String)

theorem isOrderly_forPackage (caseless : mime.IsCaseless) :
    (forPackage parts resources mime).IsOrderly mime := by
  refine IsOrderly.foldl (fun _ name orderly => orderly.addExtension caseless _) ?_ resources
  refine IsOrderly.foldl (fun _ fixed orderly => orderly.addDefault fixed.1 fixed.2) ?_ _
  refine IsOrderly.foldl (fun _ extension orderly => orderly.addExtension caseless extension) ?_ _
  exact IsOrderly.foldl (fun _ part orderly => orderly.addOverride part.1 part.2)
    (IsOrderly.empty mime) parts

theorem isDistinct_forPackage : (forPackage parts resources mime).IsDistinct := by
  refine IsDistinct.foldl (fun _ name apart => apart.addExtension (extensionOf name) mime) ?_
    resources
  refine IsDistinct.foldl (fun _ fixed apart => apart.addDefault fixed.1 fixed.2) ?_ _
  refine IsDistinct.foldl (fun _ extension apart => apart.addExtension extension mime) ?_ _
  exact IsDistinct.foldl (fun _ part apart => apart.addOverride part.1 part.2)
    IsDistinct.empty parts

theorem mem_considered_forPackage {name : String} (member : name ∈ resources) :
    Text.foldAscii (extensionOf name) ∈ (forPackage parts resources mime).considered :=
  (mem_considered_foldl extensionOf resources).2 (.inl ⟨name, member, rfl⟩)

/-- The overrides are those of the parts. -/
theorem overrides_forPackage : (forPackage parts resources mime).overrides
    = Assignments.ofList (parts.map fun part => (rooted part.1, part.2)) := by
  have assigned : ∀ declarations : Declarations,
      (parts.foldl (fun declarations part => declarations.addOverride part.1 part.2)
        declarations).overrides
        = Assignments.setAll declarations.overrides
            (parts.map fun part => (rooted part.1, part.2)) := by
    intro declarations
    induction parts generalizing declarations with
    | nil => rfl
    | cons part rest ih => exact ih _
  have resourcesLater := Continues.foldl
    (fun declarations name => Continues.addExtension declarations (extensionOf name) mime)
  have fixedLater := Continues.foldl
    (fun declarations (fixed : String × String) =>
      Continues.addDefault declarations fixed.1 fixed.2)
  have guessedLater := Continues.foldl
    (fun declarations extension => Continues.addExtension declarations extension mime)
  have first := assigned {}
  rw [← (guessedLater _ guessedExtensions).overrides, ← (fixedLater _ fixedDefaults).overrides,
    ← (resourcesLater _ resources).overrides] at first
  exact first

/-- The fixed defaults are declared, whatever the lookup says of their extensions. -/
theorem fixedDefaults_subset_forPackage :
    fixedDefaults ⊆ (forPackage parts resources mime).defaults := by
  have unlooked : ∀ declarations : Declarations, declarations.considered = [] →
      (parts.foldl (fun declarations part => declarations.addOverride part.1 part.2)
        declarations).considered = [] := by
    intro declarations none
    induction parts generalizing declarations with
    | nil => exact none
    | cons part rest ih => exact ih _ none
  have new : ∀ declarations : Declarations, declarations.considered = [] →
      ∀ fixed ∈ fixedDefaults,
        Text.foldAscii fixed.1 ∉ (guessedExtensions.foldl (fun declarations extension =>
          (declarations.addExtension extension mime).2) declarations).considered := by
    intro declarations none fixed listed member
    rcases (mem_considered_foldl id guessedExtensions).1 member with guessed | earlier
    · have unguessed : ∀ fixed ∈ fixedDefaults,
          ¬∃ extension ∈ guessedExtensions, Text.foldAscii fixed.1 = Text.foldAscii extension := by
        decide
      exact unguessed fixed listed guessed
    · rw [none] at earlier
      cases earlier
  have declared := subset_defaults_foldl_addDefault (by decide) (new _ (unlooked {} rfl))
  intro fixed listed
  exact mem_defaults_foldl (fun _ name member => mem_defaults_addExtension member _ mime)
    (declared listed) resources

theorem rels_mem_extensions_forPackage :
    "rels" ∈ (forPackage parts resources mime).extensions := by
  have rels : ("rels", ContentType.relationships) ∈ fixedDefaults := List.mem_cons_self
  exact List.mem_map.2 ⟨_, fixedDefaults_subset_forPackage parts resources rels, by decide⟩

end Package

end Declarations

end WordPackage
