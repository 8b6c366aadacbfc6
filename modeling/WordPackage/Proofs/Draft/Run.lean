import WordPackage.Draft.Basic
import WordPackage.Proofs.Resource.Store
import WordPackage.Proofs.Resource.Target

/-!
# Runs of operations on a draft

A draft comes about by operations, one after another. A registration that is
refused leaves the draft as it was. What was supplied and accepted on the way is
kept in a history, which knows nothing of how the draft stores it.
-/

namespace WordPackage

/-- An operation on a draft. -/
inductive Operation where
  | setDocument (text : String)
  | setStyles (text : String)
  | setFontTable (text : String)
  | setMetadata (metadata : MetadataRecord)
  | useMimeLookup (mime : MimeLookup)
  | usePropertyWriter (properties : PropertyWriter)
  | setOptionalPart (part : OptionalPart) (text : String)
  | addImage (target : String) (source : ResourceSource)
  | addFont (target : String) (data : ByteArray)
  | relateDocument (key : RelationshipKey)
  | relateFontTable (key : RelationshipKey)

/-- The relationship to an embedded resource. -/
def ResourceTarget.key (resource : ResourceTarget) (kind : String) : RelationshipKey :=
  { target := resource.target, kind }

namespace Draft

/-- The draft after an operation. -/
def perform (draft : Draft) : Operation → Draft
  | .setDocument text => draft.setDocument text
  | .setStyles text => draft.setStyles text
  | .setFontTable text => draft.setFontTable text
  | .setMetadata metadata => draft.setMetadata metadata
  | .useMimeLookup mime => draft.withMimeLookup mime
  | .usePropertyWriter properties => draft.withPropertyWriter properties
  | .setOptionalPart part text => (draft.setOptionalPart part text).2
  | .addImage target source =>
      match draft.addImage target source with
      | .ok (_, next) => next
      | .error _ => draft
  | .addFont target data =>
      match draft.addFont target data with
      | .ok (_, next) => next
      | .error _ => draft
  | .relateDocument key =>
      { draft with documentRelationships := (draft.documentRelationships.add key).2 }
  | .relateFontTable key =>
      { draft with fontTableRelationships := (draft.fontTableRelationships.add key).2 }

/-- The draft after operations one after another. -/
def run (draft : Draft) (operations : List Operation) : Draft :=
  operations.foldl perform draft

@[simp] theorem run_nil (draft : Draft) : draft.run [] = draft := rfl

@[simp] theorem run_cons (draft : Draft) (operation : Operation) (later : List Operation) :
    draft.run (operation :: later) = (draft.perform operation).run later := rfl

theorem run_concat (draft : Draft) (earlier : List Operation) (operation : Operation) :
    draft.run (earlier ++ [operation]) = (draft.run earlier).perform operation := by
  rw [run, List.foldl_append, List.foldl_cons, List.foldl_nil, run]

/-- What every operation keeps holds after a run. -/
theorem holds_run (holds : Draft → Prop) {operations : List Operation}
    (kept : ∀ draft, ∀ operation ∈ operations, holds draft → holds (draft.perform operation))
    {draft : Draft} (initially : holds draft) : holds (draft.run operations) := by
  induction operations generalizing draft with
  | nil => exact initially
  | cons operation later ih =>
      apply ih
      · intro draft operation member
        exact kept draft operation (List.mem_cons_of_mem _ member)
      · exact kept draft operation List.mem_cons_self initially

/-- The image that an operation embeds, if it is accepted: its path and its source. -/
def acceptedImage? (draft : Draft) : Operation → Option (String × ResourceSource)
  | .addImage target source =>
      match draft.addImage target source with
      | .ok _ => some (PartName.wordDirectory ++ Text.dropLeading '/' target, source)
      | .error _ => none
  | _ => none

/-- The font that an operation embeds, if it is accepted: its path and its bytes. -/
def acceptedFont? (draft : Draft) : Operation → Option (String × ByteArray)
  | .addFont target data =>
      match draft.addFont target data with
      | .ok _ => some (PartName.wordDirectory ++ Text.dropLeading '/' target, data)
      | .error _ => none
  | _ => none

/-- The optional part that an operation supplies, with its text. -/
def suppliedPart? (_ : Draft) : Operation → Option (OptionalPart × String)
  | .setOptionalPart part text => some (part, text)
  | _ => none

/-- An image that is recorded was offered. -/
theorem exists_of_acceptedImage? {draft : Draft} {operation : Operation}
    {image : String × ResourceSource} (recorded : draft.acceptedImage? operation = some image) :
    ∃ target, operation = .addImage target image.2 ∧
      image.1 = PartName.wordDirectory ++ Text.dropLeading '/' target := by
  cases operation with
  | addImage target source =>
      simp only [acceptedImage?] at recorded
      split at recorded
      · obtain rfl := Option.some.inj recorded
        exact ⟨target, rfl, rfl⟩
      · cases recorded
  | _ => cases recorded

/-- A font that is recorded was offered. -/
theorem exists_of_acceptedFont? {draft : Draft} {operation : Operation}
    {font : String × ByteArray} (recorded : draft.acceptedFont? operation = some font) :
    ∃ target, operation = .addFont target font.2 ∧
      font.1 = PartName.wordDirectory ++ Text.dropLeading '/' target := by
  cases operation with
  | addFont target data =>
      simp only [acceptedFont?] at recorded
      split at recorded
      · obtain rfl := Option.some.inj recorded
        exact ⟨target, rfl, rfl⟩
      · cases recorded
  | _ => cases recorded

/-- The draft with an image under the path of a target. -/
def embedImage (draft : Draft) (resource : ResourceTarget) (source : ResourceSource) : Draft :=
  { draft with
    images := draft.images.insert resource.path source
    documentRelationships := draft.documentRelationships.register
      (resource.key RelationshipType.image) }

/-- The draft with a font under the path of a target. -/
def embedFont (draft : Draft) (resource : ResourceTarget) (data : ByteArray) : Draft :=
  { draft with
    fonts := draft.fonts.insert resource.path data
    fontTableRelationships := draft.fontTableRelationships.register
      (resource.key RelationshipType.font) }

/-- An image is embedded and recorded under a proper target that no part and no font has, or
it is refused and nothing changes. -/
theorem perform_addImage (draft : Draft) (target : String) (source : ResourceSource) :
    (∃ resource : ResourceTarget, resource.IsProper ∧ resource.path ∉ reservedNames ∧
      draft.fonts.contains resource.path = false ∧
      draft.perform (.addImage target source) = draft.embedImage resource source ∧
      draft.acceptedImage? (.addImage target source) = some (resource.path, source)) ∨
    (draft.perform (.addImage target source) = draft ∧
      draft.acceptedImage? (.addImage target source) = none) := by
  rcases parsed : ResourceTarget.parse target with failure | resource
  · right
    simp [perform, acceptedImage?, addImage, parsed]
  · obtain ⟨given, proper, free⟩ := ResourceTarget.parse_eq_ok_iff.1 parsed
    cases taken : draft.fonts.contains resource.path with
    | true =>
        right
        simp [perform, acceptedImage?, addImage, parsed, taken]
    | false =>
        left
        refine ⟨resource, proper, free, taken, ?_, ?_⟩
        · simp only [perform, addImage, parsed, taken]
          rfl
        · rw [ResourceTarget.path, given]
          simp only [acceptedImage?, addImage, parsed, taken]
          rfl

theorem perform_addFont_of_free {draft : Draft} {target : String} {resource : ResourceTarget}
    (parsed : ResourceTarget.parse target = .ok resource)
    (free : draft.images.contains resource.path = false) (data : ByteArray) :
    draft.perform (.addFont target data) = draft.embedFont resource data := by
  simp only [perform, addFont, parsed, free]
  rfl

/-- A font is embedded and recorded under a proper target that no part and no image has, or it
is refused and nothing changes. -/
theorem perform_addFont (draft : Draft) (target : String) (data : ByteArray) :
    (∃ resource : ResourceTarget, resource.IsProper ∧ resource.path ∉ reservedNames ∧
      draft.images.contains resource.path = false ∧
      draft.perform (.addFont target data) = draft.embedFont resource data ∧
      draft.acceptedFont? (.addFont target data) = some (resource.path, data)) ∨
    (draft.perform (.addFont target data) = draft ∧
      draft.acceptedFont? (.addFont target data) = none) := by
  rcases parsed : ResourceTarget.parse target with failure | resource
  · right
    simp [perform, acceptedFont?, addFont, parsed]
  · obtain ⟨given, proper, free⟩ := ResourceTarget.parse_eq_ok_iff.1 parsed
    cases taken : draft.images.contains resource.path with
    | true =>
        right
        simp [perform, acceptedFont?, addFont, parsed, taken]
    | false =>
        left
        refine ⟨resource, proper, free, taken, perform_addFont_of_free parsed taken data, ?_⟩
        · rw [ResourceTarget.path, given]
          simp only [acceptedFont?, addFont, parsed, taken]
          rfl

/-- Offering an image touches the images and the relationships of the main document only. -/
theorem perform_addImage_frame (draft : Draft) (target : String) (source : ResourceSource) :
    (draft.perform (.addImage target source)).fonts = draft.fonts ∧
      (draft.perform (.addImage target source)).optionalParts = draft.optionalParts ∧
      (draft.perform (.addImage target source)).settings = draft.settings := by
  rcases draft.perform_addImage target source with ⟨_, -, -, -, next, -⟩ | ⟨next, -⟩
  · rw [next]
    exact ⟨rfl, rfl, rfl⟩
  · rw [next]
    exact ⟨rfl, rfl, rfl⟩

/-- Offering a font touches the fonts and the relationships of the font table only. -/
theorem perform_addFont_frame (draft : Draft) (target : String) (data : ByteArray) :
    (draft.perform (.addFont target data)).images = draft.images ∧
      (draft.perform (.addFont target data)).optionalParts = draft.optionalParts ∧
      (draft.perform (.addFont target data)).settings = draft.settings := by
  rcases draft.perform_addFont target data with ⟨_, -, -, -, next, -⟩ | ⟨next, -⟩
  · rw [next]
    exact ⟨rfl, rfl, rfl⟩
  · rw [next]
    exact ⟨rfl, rfl, rfl⟩

theorem optionalParts_perform (draft : Draft) (operation : Operation) :
    (draft.perform operation).optionalParts
      = Assignments.setAll draft.optionalParts (draft.suppliedPart? operation).toList := by
  cases operation with
  | setDocument _ | setStyles _ | setFontTable _ | setMetadata _ | useMimeLookup _
  | usePropertyWriter _ | setOptionalPart _ _ | relateDocument _ | relateFontTable _ => rfl
  | addImage target source => exact (draft.perform_addImage_frame target source).2.1
  | addFont target data => exact (draft.perform_addFont_frame target data).2.1

/-- What operations record one after another, each at the draft it is performed on. -/
def recorded {β : Type} (record : Draft → Operation → Option β) (draft : Draft) :
    List Operation → List β
  | [] => []
  | operation :: later =>
      (record draft operation).toList ++ recorded record (draft.perform operation) later

/-- What a run records, one of its operations records. -/
theorem exists_of_mem_recorded {β : Type} {record : Draft → Operation → Option β}
    {operations : List Operation} {draft : Draft} {item : β}
    (member : item ∈ draft.recorded record operations) :
    ∃ before, ∃ operation ∈ operations, record before operation = some item := by
  induction operations generalizing draft with
  | nil => cases member
  | cons operation later ih =>
      rcases List.mem_append.1 member with here | further
      · exact ⟨draft, operation, List.mem_cons_self, Option.mem_toList.1 here⟩
      · obtain ⟨before, other, found, records⟩ := ih further
        exact ⟨before, other, List.mem_cons_of_mem _ found, records⟩

/-- What is recorded of an operation at every draft, a run with the operation records. -/
theorem mem_recorded {β : Type} {record : Draft → Operation → Option β}
    {operations : List Operation} {operation : Operation} (performed : operation ∈ operations)
    {item : β} (records : ∀ draft, record draft operation = some item) (draft : Draft) :
    item ∈ draft.recorded record operations := by
  induction operations generalizing draft with
  | nil => cases performed
  | cons first later ih =>
      apply List.mem_append.2
      rcases List.mem_cons.1 performed with rfl | further
      · exact .inl (Option.mem_toList.2 (records draft))
      · exact .inr (ih further (draft.perform first))

/-- What was supplied and accepted in a run, in order. -/
structure History where
  parts : List (OptionalPart × String)
  images : List (String × ResourceSource)
  fonts : List (String × ByteArray)

/-- The history of a run from a draft. -/
def history (draft : Draft) (operations : List Operation) : History where
  parts := draft.recorded suppliedPart? operations
  images := draft.recorded acceptedImage? operations
  fonts := draft.recorded acceptedFont? operations

/-- Contents that every operation assigns as it records are those of the whole record. -/
theorem contents_run {κ α : Type} [DecidableEq κ] (contents : Draft → Assignments κ α)
    (record : Draft → Operation → Option (κ × α)) {holds : Draft → Prop}
    (kept : ∀ draft operation, holds draft → holds (draft.perform operation))
    (assigned : ∀ draft operation, holds draft →
      contents (draft.perform operation)
        = (contents draft).setAll (record draft operation).toList)
    {draft : Draft} (initially : holds draft) (operations : List Operation) :
    contents (draft.run operations)
      = (contents draft).setAll (draft.recorded record operations) := by
  induction operations generalizing draft with
  | nil => rfl
  | cons operation later ih =>
      rw [run_cons, ih (kept draft operation initially), assigned draft operation initially,
        recorded, Assignments.setAll_append]

/-- Contents that a run recorded stem from its operations. -/
theorem exists_of_mem_contents {κ α : Type} [DecidableEq κ] {contents : Assignments κ α}
    {record : Draft → Operation → Option (κ × α)} {draft : Draft} {operations : List Operation}
    (assigned : contents = Assignments.ofList (draft.recorded record operations))
    {pair : κ × α} (member : pair ∈ contents) :
    ∃ before, ∃ operation ∈ operations, record before operation = some pair := by
  rw [assigned] at member
  rcases Assignments.mem_or_mem_of_mem_setAll member with recorded | nothing
  · exact exists_of_mem_recorded recorded
  · cases nothing

theorem optionalParts_run (settings : Settings) (operations : List Operation) :
    ((ofSettings settings).run operations).optionalParts
      = Assignments.ofList ((ofSettings settings).history operations).parts :=
  contents_run Draft.optionalParts suppliedPart? (fun _ _ (kept : True) => kept)
    (fun draft operation _ => draft.optionalParts_perform operation) trivial operations

theorem mem_keys_optionalParts_run {settings : Settings} {operations : List Operation}
    {part : OptionalPart} {text : String} (supplied : .setOptionalPart part text ∈ operations) :
    part ∈ ((ofSettings settings).run operations).optionalParts.keys := by
  rw [optionalParts_run, Assignments.keys_ofList, List.mem_eraseDups]
  have records : ∀ draft : Draft, suppliedPart? draft (.setOptionalPart part text)
      = some (part, text) := fun _ => rfl
  have recorded := mem_recorded supplied records (ofSettings settings)
  exact List.mem_map_of_mem recorded

end Draft

end WordPackage
