import WordPackage.Proofs.Draft.Run
import WordPackage.Proofs.Relationship.Table

/-!
# Numbered drafts

A draft says which relationships its parts have and in which order they were registered. Their
identifiers come from tables, whose counters have 32 bits. A numbered draft keeps both. Operations
go through it step by step, and what was changed before a step fails stays changed.

Leaving the tables out gives the draft that the same operations lead to, and after every run the
tables stand for the relationships of that draft.
-/

namespace WordPackage

/-- A draft with the tables that number the relationships of its main document and of its font
table. -/
structure NumberedDraft where
  draft : Draft
  documentTable : RelationshipTable
  fontTable : RelationshipTable

/-- A part of a draft that refers to others. -/
inductive Referrer where
  | document
  | fontTable

namespace Referrer

/-- The relationships of the part. -/
def registry (referrer : Referrer) (draft : Draft) : Registry :=
  match referrer with
  | document => draft.documentRelationships
  | fontTable => draft.fontTableRelationships

/-- The table that numbers the relationships of the part. -/
def table (referrer : Referrer) (numbered : NumberedDraft) : RelationshipTable :=
  match referrer with
  | document => numbered.documentTable
  | fontTable => numbered.fontTable

/-- The draft with other relationships of the part. -/
def withRegistry (referrer : Referrer) (draft : Draft) (registry : Registry) : Draft :=
  match referrer with
  | document => { draft with documentRelationships := registry }
  | fontTable => { draft with fontTableRelationships := registry }

/-- The draft with another table for the relationships of the part. -/
def withTable (referrer : Referrer) (numbered : NumberedDraft) (table : RelationshipTable) :
    NumberedDraft :=
  match referrer with
  | document => { numbered with documentTable := table }
  | fontTable => { numbered with fontTable := table }

/-- The draft with other relationships of the part and another table for them. -/
def replace (referrer : Referrer) (numbered : NumberedDraft) (registry : Registry)
    (table : RelationshipTable) : NumberedDraft :=
  referrer.withTable { numbered with draft := referrer.withRegistry numbered.draft registry } table

end Referrer

namespace NumberedDraft

/-- The draft of a package to which nothing was added yet. -/
def ofSettings (settings : Settings) : NumberedDraft where
  draft := .ofSettings settings
  documentTable := .document
  fontTable := .empty

/-- Register a relationship of a part, and give the identifier that the table has for it. -/
def relate (numbered : NumberedDraft) (referrer : Referrer) (key : RelationshipKey) :
    String × NumberedDraft :=
  let registered := (referrer.table numbered).add key
  (registered.1,
    referrer.replace numbered ((referrer.registry numbered.draft).register key) registered.2)

/-- What changes a draft as it goes on, and may fail. -/
abbrev Activity (α : Type) := ExceptT Failure (StateM NumberedDraft) α

namespace Activity

variable {α β : Type} (numbered : NumberedDraft)

/-- The outcome of an activity, and the draft as the activity leaves it. -/
def performed (activity : Activity α) : Except Failure α × NumberedDraft :=
  (ExceptT.run activity).run numbered

theorem performed_ofExcept (result : Except Failure α) :
    performed numbered (ofExcept result : Activity α) = (result, numbered) := by
  cases result with
  | error failure => rfl
  | ok value => rfl

theorem performed_get :
    performed numbered (get : Activity NumberedDraft) = (.ok numbered, numbered) := rfl

theorem performed_modify (change : NumberedDraft → NumberedDraft) :
    performed numbered (modify change : Activity Unit) = (.ok (), change numbered) := rfl

theorem performed_modifyGet (change : NumberedDraft → α × NumberedDraft) :
    performed numbered (modifyGet change : Activity α)
      = (.ok (change numbered).1, (change numbered).2) := rfl

theorem performed_bind (activity : Activity α) (next : α → Activity β) :
    performed numbered (activity >>= next) = match performed numbered activity with
      | (.ok value, later) => performed later (next value)
      | (.error failure, later) => (.error failure, later) := by
  unfold performed ExceptT.run StateT.run
  simp only [bind, ExceptT.bind, ExceptT.mk, StateT.bind, ExceptT.bindCont]
  cases activity numbered with
  | mk result later => cases result <;> rfl

theorem performed_check (check : Bool) (failure : Failure) (next : Activity α) :
    performed numbered (if check then throw failure else next)
      = if check then (.error failure, numbered) else performed numbered next := by
  cases check with
  | false => rfl
  | true => rfl

end Activity

end NumberedDraft

open NumberedDraft

/-- Where a draft keeps the resources of one kind: a store, beside the part that refers to them. The
paths of the resources of the other kind are not to be had. -/
structure Shelf (α : Type) where
  kind : String
  referrer : Referrer
  store : Draft → ResourceStore α
  withStore : Draft → ResourceStore α → Draft
  rivals : Draft → List String
  isRivaled : Draft → String → Bool
  rivalry : String → Defect
  registry_withStore : ∀ (part : Referrer) draft store,
    part.registry (withStore draft store) = part.registry draft

namespace Shelf

/-- Where the images are kept. -/
def images : Shelf ResourceSource where
  kind := RelationshipType.image
  referrer := .document
  store := Draft.images
  withStore draft images := { draft with images }
  rivals draft := draft.fonts.paths
  isRivaled draft path := draft.fonts.contains path
  rivalry := .targetOfFont
  registry_withStore := by
    rintro (_ | _) draft store
    · rfl
    · rfl

/-- Where the fonts are kept. -/
def fonts : Shelf ByteArray where
  kind := RelationshipType.font
  referrer := .fontTable
  store := Draft.fonts
  withStore draft fonts := { draft with fonts }
  rivals draft := draft.images.paths
  isRivaled draft path := draft.images.contains path
  rivalry := .targetOfImage
  registry_withStore := by
    rintro (_ | _) draft store
    · rfl
    · rfl

variable {α : Type} (shelf : Shelf α)

/-- The draft with a resource in the store. -/
def stored (numbered : NumberedDraft) (resource : ResourceTarget) (payload : α) : NumberedDraft :=
  { numbered with
    draft := shelf.withStore numbered.draft
      ((shelf.store numbered.draft).insert resource.path payload) }

/-- Offer a resource step by step: its target is checked, then it is stored, then its relationship
is registered. -/
def offer (given : String) (payload : α) : Activity String := do
  let resource ← ofExcept (ResourceTarget.parse given)
  let numbered ← get
  if shelf.isRivaled numbered.draft resource.path then
    throw (.defective (shelf.rivalry resource.target))
  else
    modify fun numbered => shelf.stored numbered resource payload
    modifyGet fun numbered => numbered.relate shelf.referrer (resource.key shelf.kind)

/-- What an offer comes to: a failure with the draft as it was, or an identifier with the draft in
which the resource is stored and registered. -/
theorem performed_offer (numbered : NumberedDraft) (given : String) (payload : α) :
    Activity.performed numbered (shelf.offer given payload)
      = match ResourceTarget.parse given with
        | .error failure => (.error failure, numbered)
        | .ok resource =>
            if shelf.isRivaled numbered.draft resource.path then
              (.error (.defective (shelf.rivalry resource.target)), numbered)
            else
              let related := (shelf.stored numbered resource payload).relate shelf.referrer
                (resource.key shelf.kind)
              (.ok related.1, related.2) := by
  rw [offer, Activity.performed_bind, Activity.performed_ofExcept]
  cases ResourceTarget.parse given with
  | error failure => rfl
  | ok resource =>
      simp only [Activity.performed_bind, Activity.performed_get, Activity.performed_check,
        Activity.performed_modify, Activity.performed_modifyGet]

end Shelf

namespace Draft

end Draft

namespace Shelf

variable {α : Type} (shelf : Shelf α)

end Shelf

namespace NumberedDraft

/-- The draft after an operation. -/
def perform (numbered : NumberedDraft) : Operation → NumberedDraft
  | .setOptionalPart part text =>
      let supplied := { numbered.draft with
        optionalParts := numbered.draft.optionalParts.set part text }
      ({ numbered with draft := supplied }.relate .document (Draft.optionalKey part)).2
  | .addImage target source => (Activity.performed numbered (Shelf.images.offer target source)).2
  | .addFont target data => (Activity.performed numbered (Shelf.fonts.offer target data)).2
  | .relateDocument key => (numbered.relate .document key).2
  | .relateFontTable key => (numbered.relate .fontTable key).2
  | operation => { numbered with draft := numbered.draft.perform operation }

/-- The draft after operations one after another. -/
def run (numbered : NumberedDraft) (operations : List Operation) : NumberedDraft :=
  operations.foldl perform numbered

/-- Whether the tables of a draft stand for its relationships. -/
def IsCounted (numbered : NumberedDraft) : Prop :=
  ∀ referrer : Referrer, (referrer.table numbered).Represents (referrer.registry numbered.draft)

namespace IsCounted

variable {numbered : NumberedDraft}

theorem ofSettings (settings : Settings) : (NumberedDraft.ofSettings settings).IsCounted := by
  rintro (_ | _)
  · exact RelationshipTable.Origin.document.represents
  · exact RelationshipTable.Origin.blank.represents

theorem frame (counted : numbered.IsCounted) {draft : Draft}
    (same : ∀ referrer : Referrer, referrer.registry draft = referrer.registry numbered.draft) :
    { numbered with draft }.IsCounted := by
  intro referrer
  rw [same referrer]
  exact counted referrer

/-- Registering a relationship of a part leaves the tables right. -/
theorem relate (counted : numbered.IsCounted) (referrer : Referrer) (key : RelationshipKey) :
    (numbered.relate referrer key).2.IsCounted := by
  intro part
  cases referrer with
  | document =>
      cases part with
      | document => exact (counted .document).add key
      | fontTable => exact counted .fontTable
  | fontTable =>
      cases part with
      | document => exact counted .document
      | fontTable => exact (counted .fontTable).add key

theorem offer {α : Type} (counted : numbered.IsCounted) (shelf : Shelf α) (given : String)
    (payload : α) : (Activity.performed numbered (shelf.offer given payload)).2.IsCounted := by
  rw [Shelf.performed_offer]
  split
  · exact counted
  · split
    · exact counted
    · exact (counted.frame fun part => shelf.registry_withStore part _ _).relate _ _

/-- Every operation leaves the tables right. -/
theorem perform (counted : numbered.IsCounted) (operation : Operation) :
    (numbered.perform operation).IsCounted := by
  cases operation with
  | setDocument _ | setStyles _ | setFontTable _ | setMetadata _ | useMimeLookup _
  | usePropertyWriter _ =>
      refine counted.frame ?_
      rintro (_ | _)
      · rfl
      · rfl
  | setOptionalPart part text =>
      refine IsCounted.relate (counted.frame ?_) _ _
      rintro (_ | _)
      · rfl
      · rfl
  | addImage target source => exact counted.offer .images target source
  | addFont target data => exact counted.offer .fonts target data
  | relateDocument key => exact counted.relate .document key
  | relateFontTable key => exact counted.relate .fontTable key

theorem run (counted : numbered.IsCounted) (operations : List Operation) :
    (numbered.run operations).IsCounted := by
  induction operations generalizing numbered with
  | nil => exact counted
  | cons operation later ih => exact ih (counted.perform operation)

end IsCounted

end NumberedDraft

end WordPackage
