import WordPackage.Proofs.ContentType.Manifest
import WordPackage.Proofs.ContentType.ReadBack
import WordPackage.Proofs.Text.Segments

/-!
# Declarations made one after another

Declarations are collected by requests, each of which may bring a lookup of its own. The first
request for an extension decides whether and how the extension is declared, in whatever ASCII case
it is given; later ones change nothing, also where the first was in vain. So nothing is declared
twice, and what a package declares depends on which resources it has, not on their order.
-/

namespace WordPackage

namespace Declarations

variable {declarations : Declarations} {mime : MimeLookup} {folded : String}

/-- A request to declare a content type. -/
inductive Request where
  | override (partName contentType : String)
  | default (extension contentType : String)
  | lookup (extension : String) (mime : MimeLookup)
  | resource (name : String) (mime : MimeLookup)

namespace Request

/-- The extension that a request is for. -/
def extension? : Request → Option String
  | .override _ _ => none
  | .default extension _ => some extension
  | .lookup extension _ => some extension
  | .resource name _ => some (extensionOf name)

/-- The content type that a request has for its extension. -/
def contentType? : Request → Option String
  | .override _ _ => none
  | .default _ contentType => some contentType
  | .lookup extension mime => mime extension
  | .resource name mime => mime (extensionOf name)

/-- Whether a request is for an extension, which is given in small letters. -/
def Concerns (request : Request) (folded : String) : Prop :=
  request.extension?.map Text.foldAscii = some folded

instance (request : Request) (folded : String) : Decidable (request.Concerns folded) :=
  inferInstanceAs (Decidable (_ = _))

theorem concerns_iff {request : Request} {extension : String}
    (named : request.extension? = some extension) :
    request.Concerns folded ↔ Text.foldAscii extension = folded := by
  rw [Concerns, named, Option.map_some, Option.some.injEq]

theorem exists_of_unnamed {request : Request} (unnamed : request.extension? = none) :
    ∃ partName contentType, request = .override partName contentType := by
  cases request with
  | override partName contentType => exact ⟨partName, contentType, rfl⟩
  | default extension contentType => cases unnamed
  | lookup extension mime => cases unnamed
  | resource name mime => cases unnamed

theorem not_concerns_override {partName contentType : String} :
    ¬(Request.override partName contentType).Concerns folded := nofun

end Request

/-- The declarations after one request. -/
def perform (declarations : Declarations) : Request → Declarations
  | .override partName contentType => declarations.addOverride partName contentType
  | .default extension contentType => (declarations.addDefault extension contentType).2
  | .lookup extension mime => (declarations.addExtension extension mime).2
  | .resource name mime => (declarations.addResource name mime).2

/-- The declarations after requests one after another. -/
def run (declarations : Declarations) (requests : List Request) : Declarations :=
  requests.foldl perform declarations

/-- A request for an extension that was considered changes nothing. -/
theorem perform_of_considered {request : Request} {extension : String}
    (named : request.extension? = some extension)
    (known : Text.foldAscii extension ∈ declarations.considered) :
    declarations.perform request = declarations := by
  cases request with
  | override partName contentType => cases named
  | default own contentType =>
      obtain rfl := Option.some.inj named
      exact addDefault_of_considered known contentType
  | lookup own mime =>
      obtain rfl := Option.some.inj named
      simp [perform, addExtension, hasConsidered, known]
  | resource name mime =>
      obtain rfl := Option.some.inj named
      simp [perform, addResource, addExtension, hasConsidered, known]

/-- A request for another extension declares it if the request has a content type for it, and notes
it in either case. -/
theorem perform_of_new {request : Request} {extension : String}
    (named : request.extension? = some extension)
    (new : Text.foldAscii extension ∉ declarations.considered) :
    declarations.perform request =
      { declarations with
        considered := Text.foldAscii extension :: declarations.considered
        defaults := declarations.defaults
          ++ (request.contentType?.map fun contentType => (extension, contentType)).toList } := by
  have looked : ∀ mime : MimeLookup, (declarations.addExtension extension mime).2 =
      { declarations with
        considered := Text.foldAscii extension :: declarations.considered
        defaults := declarations.defaults
          ++ ((mime extension).map fun contentType => (extension, contentType)).toList } := by
    intro mime
    cases found : mime extension with
    | none => simp [addExtension, hasConsidered, new, found, consider]
    | some contentType =>
        simp [addExtension, hasConsidered, new, found, addDefault_of_new new]
  cases request with
  | override partName contentType => cases named
  | default own contentType =>
      obtain rfl := Option.some.inj named
      exact addDefault_of_new new contentType
  | lookup own mime =>
      obtain rfl := Option.some.inj named
      exact looked mime
  | resource name mime =>
      obtain rfl := Option.some.inj named
      exact looked mime

/-- After a request for an extension it was considered. -/
theorem mem_considered_perform {request : Request} :
    folded ∈ (declarations.perform request).considered ↔
      request.Concerns folded ∨ folded ∈ declarations.considered := by
  cases named : request.extension? with
  | none =>
      obtain ⟨partName, contentType, rfl⟩ := Request.exists_of_unnamed named
      exact (or_iff_right Request.not_concerns_override).symm
  | some extension =>
      rw [Request.concerns_iff named]
      by_cases known : Text.foldAscii extension ∈ declarations.considered
      · rw [perform_of_considered named known]
        constructor
        · exact .inr
        · rintro (rfl | member)
          · exact known
          · exact member
      · rw [perform_of_new named known, List.mem_cons, eq_comm]

theorem IsDistinct.perform (apart : declarations.IsDistinct) (request : Request) :
    (declarations.perform request).IsDistinct := by
  cases request with
  | override partName contentType => exact apart.addOverride partName contentType
  | default extension contentType => exact apart.addDefault extension contentType
  | lookup extension mime => exact apart.addExtension extension mime
  | resource name mime => exact apart.addExtension (extensionOf name) mime

/-- No request makes a part be declared twice. -/
theorem nodup_overrides_perform (distinct : declarations.overrides.keys.Nodup)
    (request : Request) : (declarations.perform request).overrides.keys.Nodup := by
  cases request with
  | override partName contentType => exact Assignments.nodup_keys_set distinct _ contentType
  | default extension contentType =>
      rw [perform, (Continues.addDefault declarations extension contentType).overrides]
      exact distinct
  | lookup extension mime =>
      rw [perform, (Continues.addExtension declarations extension mime).overrides]
      exact distinct
  | resource name mime =>
      rw [perform, addResource,
        (Continues.addExtension declarations (extensionOf name) mime).overrides]
      exact distinct

theorem IsDistinct.get?_byExtension_of_new (apart : declarations.IsDistinct)
    (new : folded ∉ declarations.considered) : declarations.byExtension.get? folded = none := by
  rw [← Option.not_isSome_iff_eq_none, Assignments.get?_isSome_iff, byExtension, Assignments.keys,
    List.map_map]
  exact fun declared => new (apart.considered folded declared)

/-- A request decides about its extension if that was not considered before, and about no other. -/
theorem IsDistinct.get?_byExtension_perform (apart : declarations.IsDistinct)
    (request : Request) :
    (declarations.perform request).byExtension.get? folded =
      if folded ∉ declarations.considered ∧ request.Concerns folded then request.contentType?
      else declarations.byExtension.get? folded := by
  cases named : request.extension? with
  | none =>
      obtain ⟨partName, contentType, rfl⟩ := Request.exists_of_unnamed named
      rw [if_neg fun both => Request.not_concerns_override both.2]
      rfl
  | some extension =>
      simp only [Request.concerns_iff named]
      -- A considered extension is decided for good. A new one is looked for behind the decided
      -- ones.
      by_cases known : Text.foldAscii extension ∈ declarations.considered
      · rw [perform_of_considered named known, if_neg]
        rintro ⟨new, rfl⟩
        exact new known
      · rw [perform_of_new named known, byExtension, List.map_append, ← byExtension,
          Assignments.get?_append]
        by_cases same : Text.foldAscii extension = folded
        · obtain rfl := same
          rw [if_pos ⟨known, rfl⟩, apart.get?_byExtension_of_new known, Option.none_or]
          cases request.contentType? <;> simp [Assignments.get?]
        · rw [if_neg fun both => same both.2]
          cases request.contentType? <;> simp [Assignments.get?, same]

theorem IsDistinct.run (apart : declarations.IsDistinct) (requests : List Request) :
    (declarations.run requests).IsDistinct :=
  IsDistinct.foldl (fun _ request apart => apart.perform request) apart requests

theorem nodup_overrides_run (distinct : declarations.overrides.keys.Nodup)
    (requests : List Request) : (declarations.run requests).overrides.keys.Nodup := by
  induction requests generalizing declarations with
  | nil => exact distinct
  | cons request rest ih => exact ih (nodup_overrides_perform distinct request)

/-- What requests decide about an extension in small letters: the first request for it decides. -/
def decision (requests : List Request) (folded : String) : Option String :=
  (requests.find? fun request => request.Concerns folded).bind Request.contentType?

@[simp] theorem decision_nil : decision [] folded = none := rfl

theorem decision_cons (request : Request) (requests : List Request) :
    decision (request :: requests) folded =
      if request.Concerns folded then request.contentType? else decision requests folded := by
  by_cases concerned : request.Concerns folded
  · simp [decision, concerned]
  · simp [decision, concerned]

/-- Requests decide about the extensions that were not considered before. -/
theorem IsDistinct.get?_byExtension_run (apart : declarations.IsDistinct)
    (requests : List Request) :
    (declarations.run requests).byExtension.get? folded =
      if folded ∈ declarations.considered then declarations.byExtension.get? folded
      else decision requests folded := by
  induction requests generalizing declarations with
  | nil =>
      by_cases known : folded ∈ declarations.considered
      · rw [if_pos known]
        rfl
      · rw [if_neg known]
        exact apart.get?_byExtension_of_new known
  | cons request rest ih =>
      have later := ih (apart.perform request)
      simp only [mem_considered_perform, apart.get?_byExtension_perform] at later
      refine later.trans ?_
      rw [decision_cons]
      by_cases known : folded ∈ declarations.considered
      · simp [known]
      · by_cases concerned : request.Concerns folded
        · simp [known, concerned]
        · simp [known, concerned]

theorem get?_byExtension_run_empty (requests : List Request) :
    (run {} requests).byExtension.get? folded = decision requests folded := by
  rw [IsDistinct.empty.get?_byExtension_run, if_neg List.not_mem_nil]

/-- Requests decide about the extensions that none before them is for. -/
theorem decision_append (front back : List Request) :
    decision (front ++ back) folded =
      if ∃ request ∈ front, request.Concerns folded then decision front folded
      else decision back folded := by
  induction front with
  | nil => simp
  | cons request rest ih =>
      rw [List.cons_append, decision_cons, decision_cons, ih]
      by_cases concerned : request.Concerns folded
      · simp [concerned]
      · simp [concerned]

theorem exists_concerns_map {β : Type} {items : List β} {request : β → Request}
    {extension : β → String} (named : ∀ item, (request item).extension? = some (extension item)) :
    (∃ asked ∈ items.map request, asked.Concerns folded) ↔
      ∃ item ∈ items, Text.foldAscii (extension item) = folded := by
  simp only [List.mem_map, exists_exists_and_eq_and, Request.concerns_iff (named _)]

/-- Where requests of one kind are made with one lookup that ignores ASCII case, it decides. -/
theorem decision_map_lookup {β : Type} {items : List β} {request : β → Request}
    {extension : β → String} (caseless : mime.IsCaseless)
    (named : ∀ item, (request item).extension? = some (extension item))
    (looked : ∀ item, (request item).contentType? = mime (extension item)) :
    decision (items.map request) folded =
      if ∃ item ∈ items, Text.foldAscii (extension item) = folded then mime folded else none := by
  induction items with
  | nil => simp
  | cons item rest ih =>
      rw [List.map_cons, decision_cons, ih]
      simp only [Request.concerns_iff (named item)]
      by_cases same : Text.foldAscii (extension item) = folded
      · have alike : mime (extension item) = mime folded := by
          refine caseless _ _ ?_
          rw [← same, Text.foldAscii_foldAscii]
        simp [same, looked, alike]
      · simp [same]

/-- Requests with content types of their own decide as those are assigned, where the extensions are
given in small letters. -/
theorem decision_default {pairs : List (String × String)}
    (small : ∀ pair ∈ pairs, Text.foldAscii pair.1 = pair.1) :
    decision (pairs.map fun pair => .default pair.1 pair.2) folded
      = Assignments.get? folded pairs := by
  induction pairs with
  | nil => rfl
  | cons pair rest ih =>
      rw [List.forall_mem_cons] at small
      have concerned : (Request.default pair.1 pair.2).Concerns folded ↔ pair.1 = folded := by
        rw [Request.concerns_iff rfl, small.1]
      rw [List.map_cons, decision_cons, ih small.2, Assignments.get?]
      simp only [concerned]
      rfl

/-- The requests that a package makes for its parts, its own extensions and its resources. -/
def packageRequests (parts : List (String × String)) (resources : List String)
    (mime : MimeLookup) : List Request :=
  (parts.map fun part => .override part.1 part.2)
    ++ ((guessedExtensions.map fun extension => .lookup extension mime)
    ++ ((fixedDefaults.map fun fixed => .default fixed.1 fixed.2)
    ++ resources.map fun name => .resource name mime))

theorem forPackage_eq_run (parts : List (String × String)) (resources : List String)
    (mime : MimeLookup) :
    forPackage parts resources mime = run {} (packageRequests parts resources mime) := by
  simp only [run, packageRequests, List.foldl_append, List.foldl_map]
  rfl

/-- The content type that a package with given resources declares for an extension in small
letters: the fixed one, else that of the lookup if the extension is guessed or some resource has
it. -/
def packageDefault? (resources : List String) (mime : MimeLookup) (folded : String) :
    Option String :=
  (Assignments.get? folded fixedDefaults).or
    (if folded ∈ guessedExtensions ∨
        ∃ name ∈ resources, Text.foldAscii (extensionOf name) = folded then mime folded
      else none)

theorem guessedExtensions_spec : ∀ extension ∈ guessedExtensions,
    Text.foldAscii extension = extension ∧ Assignments.get? extension fixedDefaults = none := by
  decide

theorem foldAscii_of_mem_fixedDefaults :
    ∀ fixed ∈ fixedDefaults, Text.foldAscii fixed.1 = fixed.1 := by
  decide

/-- The requests for guessed extensions are for those. -/
theorem exists_concerns_guessed_iff :
    (∃ request ∈ guessedExtensions.map fun extension => Request.lookup extension mime,
      request.Concerns folded) ↔ folded ∈ guessedExtensions := by
  refine (exists_concerns_map fun _ => rfl).trans ?_
  constructor
  · rintro ⟨extension, member, rfl⟩
    rw [(guessedExtensions_spec extension member).1]
    exact member
  · intro member
    exact ⟨folded, member, (guessedExtensions_spec folded member).1⟩

theorem exists_concerns_fixed_iff :
    (∃ request ∈ fixedDefaults.map fun fixed => Request.default fixed.1 fixed.2,
      request.Concerns folded) ↔ (Assignments.get? folded fixedDefaults).isSome = true := by
  rw [Assignments.get?_isSome_iff, Assignments.keys, List.mem_map]
  refine (exists_concerns_map fun _ => rfl).trans (exists_congr fun fixed => ?_)
  refine and_congr_right fun member => ?_
  rw [foldAscii_of_mem_fixedDefaults fixed member]

/-- What a package declares for an extension depends on which resources it has. -/
theorem get?_byExtension_forPackage (parts : List (String × String)) (resources : List String)
    (caseless : mime.IsCaseless) :
    (forPackage parts resources mime).byExtension.get? folded
      = packageDefault? resources mime folded := by
  have unnamed : ¬∃ request ∈ parts.map fun part => Request.override part.1 part.2,
      request.Concerns folded := by
    rintro ⟨request, member, concerned⟩
    obtain ⟨part, -, rfl⟩ := List.mem_map.1 member
    exact Request.not_concerns_override concerned
  rw [forPackage_eq_run, get?_byExtension_run_empty, packageRequests, decision_append,
    if_neg unnamed, decision_append, decision_append,
    decision_default foldAscii_of_mem_fixedDefaults,
    decision_map_lookup caseless (fun _ => rfl) fun _ => rfl,
    decision_map_lookup caseless (fun _ => rfl) fun _ => rfl, packageDefault?]
  simp only [exists_concerns_guessed_iff, exists_concerns_fixed_iff]
  by_cases guessed : folded ∈ guessedExtensions
  · obtain ⟨itself, unfixed⟩ := guessedExtensions_spec folded guessed
    rw [if_pos guessed, if_pos ⟨folded, guessed, itself⟩, unfixed, Option.none_or,
      if_pos (.inl guessed)]
  · cases Assignments.get? folded fixedDefaults with
    | none => simp [guessed]
    | some contentType => simp [guessed]

end Declarations

end WordPackage
