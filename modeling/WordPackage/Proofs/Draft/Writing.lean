import Mathlib.Data.List.Forall2
import WordPackage.Draft.Writing
import WordPackage.Proofs.Draft.Consistency
import WordPackage.Proofs.Package

/-!
# Writing and reading back

Writing succeeds exactly when every planned entry yields its bytes, no name
comes twice and nothing is refused; the archive then holds the planned entries in
their order.
-/

namespace WordPackage

/-- The bytes of a payload, given the files there are. -/
def Payload.read (tree : Storage.Tree) : Payload → Except Storage.Fault ByteArray
  | .bytes data => .ok data
  | .source given => given.read tree

/-- Whether a planned entry becomes the given entry of an archive. -/
structure PlannedEntry.Yields (tree : Storage.Tree) (planned : PlannedEntry)
    (entry : Archive.Entry) : Prop where
  name : entry.name = planned.name
  compression : entry.compression = planned.compression
  data : planned.payload.read tree = .ok entry.data

/-- What entries keep of the planned ones they become, all of them keep in order. -/
theorem PlannedEntry.map_of_yields {β : Type} {tree : Storage.Tree} {plan : List PlannedEntry}
    {entries : List Archive.Entry}
    (yields : List.Forall₂ (PlannedEntry.Yields tree) plan entries)
    {written : Archive.Entry → β} {expected : PlannedEntry → β}
    (kept : ∀ {planned entry}, PlannedEntry.Yields tree planned entry →
      written entry = expected planned) :
    entries.map written = plan.map expected := by
  induction yields with
  | nil => rfl
  | cons yields _ ih => rw [List.map_cons, List.map_cons, kept yields, ih]

/-- Among the entries that planned ones become is one for each planned entry. -/
theorem PlannedEntry.exists_of_yields {tree : Storage.Tree} {plan : List PlannedEntry}
    {entries : List Archive.Entry}
    (yields : List.Forall₂ (PlannedEntry.Yields tree) plan entries) {planned : PlannedEntry}
    (member : planned ∈ plan) : ∃ entry ∈ entries, planned.Yields tree entry := by
  induction yields with
  | nil => cases member
  | cons yields _ ih =>
      rcases List.mem_cons.1 member with rfl | later
      · exact ⟨_, List.mem_cons_self, yields⟩
      · obtain ⟨entry, found, yields'⟩ := ih later
        exact ⟨entry, List.mem_cons_of_mem _ found, yields'⟩

/-- Planned entries whose payloads can be read become entries. -/
theorem PlannedEntry.exists_yields {tree : Storage.Tree} {plan : List PlannedEntry}
    (readable : ∀ planned ∈ plan, ∃ data, planned.payload.read tree = .ok data) :
    ∃ entries, List.Forall₂ (PlannedEntry.Yields tree) plan entries := by
  induction plan with
  | nil => exact ⟨[], .nil⟩
  | cons planned later ih =>
      obtain ⟨data, reads⟩ := readable planned List.mem_cons_self
      obtain ⟨entries, yields⟩ := ih fun other member =>
        readable other (List.mem_cons_of_mem _ member)
      exact ⟨⟨planned.name, data, planned.compression⟩ :: entries, .cons ⟨rfl, rfl, reads⟩ yields⟩

theorem Sink.refuses_unrestricted (entry : Archive.Entry) :
    Sink.unrestricted.refuses entry = none := by
  unfold refuses
  split
  · rfl
  · rfl

namespace Written

variable {written : Written} {sink : Sink} {tree : Storage.Tree}

/-- An entry with a new name that is not refused is written. -/
theorem step_of_yields {planned : PlannedEntry} {entry : Archive.Entry}
    (yields : planned.Yields tree entry) (new : planned.name ∉ written.entries.map (·.name))
    (taken : sink.refuses entry = none) :
    (written.step sink tree planned).entries = written.entries ++ [entry] ∧
      (written.step sink tree planned).failure = written.failure := by
  obtain ⟨name, payload, compression⟩ := planned
  obtain ⟨name', data, compression'⟩ := entry
  obtain ⟨rfl, rfl, reads⟩ := yields
  cases payload with
  | bytes given =>
      obtain rfl : given = data := Except.ok.inj reads
      simp only [step, put, if_neg new, taken, and_self]
  | source given =>
      simp only [Payload.read] at reads
      simp only [step, reads, put, if_neg new, taken, and_self]

/-- Where bytes are written, they are written last. -/
theorem entries_put {planned : PlannedEntry} {data : ByteArray}
    (succeeds : (written.put sink planned data).failure = none) :
    (written.put sink planned data).entries
      = written.entries ++ [⟨planned.name, data, planned.compression⟩] := by
  simp only [put] at succeeds ⊢
  split
  · rename_i known
    rw [if_pos known] at succeeds
    cases succeeds
  · rename_i new
    rw [if_neg new] at succeeds
    split
    · rename_i refused
      simp [refused] at succeeds
    · rfl

/-- Where writing an entry does not fail, its payload could be read and it is written last. -/
theorem exists_yields_of_step {planned : PlannedEntry}
    (succeeds : (written.step sink tree planned).failure = none) :
    ∃ entry, planned.Yields tree entry ∧
      (written.step sink tree planned).entries = written.entries ++ [entry] := by
  obtain ⟨name, payload, compression⟩ := planned
  cases payload with
  | bytes data => exact ⟨⟨name, data, compression⟩, ⟨rfl, rfl, rfl⟩, entries_put succeeds⟩
  | source given =>
      simp only [step] at succeeds ⊢
      split at succeeds
      · rename_i data reads
        exact ⟨⟨name, data, compression⟩, ⟨rfl, rfl, reads⟩, entries_put succeeds⟩
      · cases succeeds

/-- Entries with distinct new names that are not refused are written in their order. -/
theorem run_of_yields {plan : List PlannedEntry} {entries : List Archive.Entry}
    (yields : List.Forall₂ (PlannedEntry.Yields tree) plan entries)
    (unfailed : written.failure = none)
    (distinct : (written.entries.map (·.name) ++ plan.map PlannedEntry.name).Nodup)
    (taken : ∀ entry ∈ entries, sink.refuses entry = none) :
    (run sink tree written plan).entries = written.entries ++ entries ∧
      (run sink tree written plan).failure = none := by
  induction yields generalizing written with
  | nil => exact ⟨(List.append_nil _).symm, unfailed⟩
  | @cons planned entry plan entries yields _ ih =>
      rw [List.map_cons] at distinct
      have new : planned.name ∉ written.entries.map (·.name) := fun known =>
        (List.nodup_append.1 distinct).2.2 _ known _ List.mem_cons_self rfl
      obtain ⟨added, failure⟩ := step_of_yields yields new (taken entry List.mem_cons_self)
      rw [run, unfailed]
      have rest := ih (failure.trans unfailed) ?_ fun other member =>
        taken other (List.mem_cons_of_mem _ member)
      · rw [added, List.append_assoc] at rest
        exact rest
      · rw [added, List.map_append, List.map_singleton, yields.name, List.append_assoc]
        exact distinct

/-- Where writing does not fail, the planned entries are written in their order. -/
theorem exists_yields_of_run {plan : List PlannedEntry} (unfailed : written.failure = none)
    (succeeds : (run sink tree written plan).failure = none) :
    ∃ entries, List.Forall₂ (PlannedEntry.Yields tree) plan entries ∧
      (run sink tree written plan).entries = written.entries ++ entries := by
  induction plan generalizing written with
  | nil => exact ⟨[], .nil, (List.append_nil _).symm⟩
  | cons planned later ih =>
      rw [run, unfailed] at succeeds ⊢
      have stepped : (written.step sink tree planned).failure = none := by
        cases failed : (written.step sink tree planned).failure with
        | none => rfl
        | some failure =>
            -- A failed step is where the run stays.
            cases later with
            | nil => exact absurd (failed.symm.trans succeeds) (by simp)
            | cons next rest =>
                simp only [run, failed] at succeeds
                exact absurd succeeds (by simp)
      obtain ⟨entry, yields, added⟩ := exists_yields_of_step stepped
      obtain ⟨entries, rest, all⟩ := ih stepped succeeds
      refine ⟨entry :: entries, .cons yields rest, ?_⟩
      rw [all, added, List.append_assoc, List.singleton_append]

theorem result_eq_ok_iff {entries : List Archive.Entry} :
    written.result = .ok entries ↔ written.failure = none ∧ written.entries = entries := by
  unfold result
  split
  · rename_i unfailed
    simp [unfailed]
  · rename_i failed
    simp [failed]

end Written

namespace Draft

/-- The names that a draft is written under. -/
def entryNames (draft : Draft) : List String :=
  fixedEntries
    ++ (draft.optionalParts.keys.map OptionalPart.path ++ (draft.images.paths ++ draft.fonts.paths))

theorem map_name_plan (draft : Draft) (now : Instant) :
    (draft.plan now).map PlannedEntry.name = draft.entryNames := by
  simp [plan, parts, entryNames, fixedEntries, Assignments.keys, ResourceStore.paths,
    ResourceStore.toList, Function.comp_def]

theorem path_injective : Function.Injective OptionalPart.path := by
  intro left right same
  have distinct : ∀ left ∈ OptionalPart.all, ∀ right ∈ OptionalPart.all,
      left.path = right.path → left = right := by decide
  exact distinct left (OptionalPart.mem_all left) right (OptionalPart.mem_all right) same

/-- The names of a consistent draft are distinct. -/
theorem IsConsistent.nodup_entryNames {draft : Draft} (consistent : draft.IsConsistent) :
    draft.entryNames.Nodup := by
  have fixed : fixedEntries.Nodup := by decide
  have optional : (draft.optionalParts.keys.map OptionalPart.path).Nodup :=
    List.pairwise_map.2 (consistent.parts_distinct.imp fun apart same =>
      apart (path_injective same))
  have fixedApart : ∀ part ∈ OptionalPart.all, part.path ∉ fixedEntries := by decide
  have unreserved : ∀ path ∈ draft.images.paths ++ draft.fonts.paths, path ∉ reservedNames := by
    intro path member
    rcases List.mem_append.1 member with image | font
    · exact consistent.images.notMem_reservedNames image
    · exact consistent.fonts.notMem_reservedNames font
  -- Within each of the four lists the names are distinct. Resources take no reserved names, and
  -- images and fonts are kept apart.
  refine List.nodup_append.2 ⟨fixed, List.nodup_append.2 ⟨optional, List.nodup_append.2
    ⟨consistent.images.distinct, consistent.fonts.distinct, ?_⟩, ?_⟩, ?_⟩
  · rintro image imageMember font fontMember rfl
    exact consistent.apart image imageMember fontMember
  · rintro path partMember resource resourceMember rfl
    obtain ⟨part, -, rfl⟩ := List.mem_map.1 partMember
    refine unreserved _ resourceMember (List.mem_append_right _ ?_)
    exact List.mem_map_of_mem (OptionalPart.mem_all part)
  · rintro path fixedMember other otherMember rfl
    rcases List.mem_append.1 otherMember with partMember | resourceMember
    · obtain ⟨part, -, rfl⟩ := List.mem_map.1 partMember
      exact fixedApart part (OptionalPart.mem_all part) fixedMember
    · exact unreserved _ resourceMember (List.mem_append_left _ fixedMember)

theorem yields_of_write {draft : Draft} {now : Instant} {tree : Storage.Tree} {sink : Sink}
    {entries : List Archive.Entry} (succeeds : (draft.write now tree sink).result = .ok entries) :
    List.Forall₂ (PlannedEntry.Yields tree) (draft.plan now) entries := by
  obtain ⟨unfailed, all⟩ := Written.result_eq_ok_iff.1 succeeds
  obtain ⟨entries', yields, written⟩ := Written.exists_yields_of_run rfl unfailed
  obtain rfl : entries' = entries := (written.symm.trans all : [] ++ entries' = entries)
  exact yields

/-- A consistent draft is written where its images can be read and nothing is refused. -/
theorem IsConsistent.exists_write {draft : Draft} (consistent : draft.IsConsistent)
    (now : Instant) {tree : Storage.Tree} {sink : Sink}
    (accepts : ∀ entry, sink.refuses entry = none)
    (readable : ∀ image ∈ draft.images.toList, ∃ data, image.2.read tree = .ok data) :
    ∃ entries, (draft.write now tree sink).result = .ok entries := by
  have all : ∀ planned ∈ draft.plan now, ∃ data, planned.payload.read tree = .ok data := by
    intro planned member
    rcases List.mem_append.1 member with front | font
    · rcases List.mem_append.1 front with part | image
      · obtain ⟨_, -, rfl⟩ := List.mem_map.1 part
        exact ⟨_, rfl⟩
      · obtain ⟨_, held, rfl⟩ := List.mem_map.1 image
        exact readable _ held
    · obtain ⟨_, -, rfl⟩ := List.mem_map.1 font
      exact ⟨_, rfl⟩
  obtain ⟨entries, yields⟩ := PlannedEntry.exists_yields all
  have distinct := consistent.nodup_entryNames
  rw [← map_name_plan draft now] at distinct
  have writes : (draft.write now tree sink).entries = [] ++ entries ∧
      (draft.write now tree sink).failure = none :=
    Written.run_of_yields yields rfl distinct fun entry _ => accepts entry
  exact ⟨entries, Written.result_eq_ok_iff.2 ⟨writes.2, writes.1⟩⟩

end Draft

end WordPackage
