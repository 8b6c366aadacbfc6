import WordPackage.Proofs.Draft.Archive

/-!
# Writing as a sequence of events

A draft is written in events: the bytes of each entry are put into the archive, and right before
those of an image its source is read. Where entries are stored as they are, writing goes through
the events in order and ends at the first one that fails, with the failure of that event. The
sources that were read are those of the events so far, and each is the last one that was accepted
for its image.
-/

namespace WordPackage

/-- A point at which writing can fail. -/
inductive WritingEvent where
  | read (path : String) (source : ResourceSource)
  | put (name : String) (payload : Payload)

namespace WritingEvent

variable (tree : Storage.Tree) (sink : Sink)

/-- Why an event fails, if it does: the source cannot be read, or the bytes are refused. Bytes that
could not be read are not there to be refused. -/
def failure? : WritingEvent → Option Failure
  | .read path source =>
      match source.read tree with
      | .error fault => some (.unreadResource path fault)
      | .ok _ => none
  | .put name payload =>
      match payload.read tree with
      | .error _ => none
      | .ok data => (sink.refuses ⟨name, data, .stored⟩).map (.unwrittenEntry name)

/-- The source that an event reads. -/
def source? : WritingEvent → Option ResourceSource
  | .read _ source => some source
  | .put _ _ => none

/-- The events up to the first one that fails, with that one. -/
def reached : List WritingEvent → List WritingEvent
  | [] => []
  | event :: later =>
      match event.failure? tree sink with
      | some _ => [event]
      | none => event :: reached later

variable {tree sink} {events earlier later : List WritingEvent} {event : WritingEvent}
  {failure : Failure}

theorem reached_prefix (events : List WritingEvent) : reached tree sink events <+: events := by
  induction events with
  | nil => exact List.prefix_rfl
  | cons event later ih =>
      rw [reached]
      split
      · exact List.prefix_append [event] later
      · exact List.cons_prefix_cons.2 ⟨rfl, ih⟩

theorem reached_singleton (event : WritingEvent) : reached tree sink [event] = [event] := by
  rw [reached]
  split
  · rfl
  · rfl

/-- What follows events that do not fail is reached. -/
theorem reached_append (unfailed : ∀ event ∈ earlier, event.failure? tree sink = none)
    (later : List WritingEvent) :
    reached tree sink (earlier ++ later) = earlier ++ reached tree sink later := by
  induction earlier with
  | nil => rfl
  | cons event rest ih =>
      rw [List.cons_append, reached, unfailed event List.mem_cons_self]
      dsimp only
      rw [ih fun other member => unfailed other (List.mem_cons_of_mem _ member), List.cons_append]

theorem reached_of_unfailed (unfailed : ∀ event ∈ events, event.failure? tree sink = none) :
    reached tree sink events = events := by
  have all := reached_append unfailed []
  rwa [List.append_nil, reached, List.append_nil] at all

/-- What follows a failing event is not reached. -/
theorem reached_append_of_failure (failed : earlier.findSome? (failure? tree sink) = some failure)
    (later : List WritingEvent) :
    reached tree sink (earlier ++ later) = reached tree sink earlier := by
  induction earlier with
  | nil => cases failed
  | cons event rest ih =>
      rw [List.cons_append, reached, reached]
      rw [List.findSome?_cons] at failed
      cases here : event.failure? tree sink with
      | some _ => rfl
      | none =>
          rw [here] at failed
          dsimp only
          rw [ih failed]

end WritingEvent

/-- The events of an entry that is to be written. -/
def PlannedEntry.events (planned : PlannedEntry) : List WritingEvent :=
  match planned.payload with
  | .bytes data => [.put planned.name (.bytes data)]
  | .source source => [.read planned.name source, .put planned.name (.source source)]

/-- The events of a draft that is written at an instant: its parts are put, then each image is read
and put, then the fonts are put. -/
def Draft.events (draft : Draft) (now : Instant) : List WritingEvent :=
  ((draft.parts now).map fun part => .put part.1 (.bytes part.2.toUTF8))
    ++ (draft.images.toList.flatMap fun image =>
        [.read image.1 image.2, .put image.1 (.source image.2)])
    ++ draft.fonts.toList.map fun font => .put font.1 (.bytes font.2)

theorem Draft.events_eq_flatMap_plan (draft : Draft) (now : Instant) :
    draft.events now = (draft.plan now).flatMap PlannedEntry.events := by
  simp only [events, plan, List.flatMap_append, List.flatMap_map, PlannedEntry.events,
    ← List.map_eq_flatMap]

/-- The sources that are read are those of the images. -/
theorem Draft.filterMap_source?_events (draft : Draft) (now : Instant) :
    (draft.events now).filterMap WritingEvent.source? = draft.images.toList.map Prod.snd := by
  have images : ∀ images : List (String × ResourceSource),
      (images.flatMap fun image =>
        [WritingEvent.read image.1 image.2, .put image.1 (.source image.2)]).filterMap
          WritingEvent.source? = images.map Prod.snd := by
    intro images
    induction images with
    | nil => rfl
    | cons image rest ih =>
        rw [List.flatMap_cons, List.filterMap_append, ih]
        rfl
  simp [events, List.filterMap_append, images, List.filterMap_map, Function.comp_def,
    WritingEvent.source?]

namespace Written

open WritingEvent (reached failure? source?)

variable {written : Written} {sink : Sink} {tree : Storage.Tree} {planned : PlannedEntry}
  {plan : List PlannedEntry}

variable (written sink) in
/-- Putting an entry with a new name fails exactly if its bytes are refused, and reads nothing. -/
theorem put_of_new (unfailed : written.failure = none)
    (new : planned.name ∉ written.entries.map (·.name)) (data : ByteArray) :
    (written.put sink planned data).failure
        = (sink.refuses ⟨planned.name, data, planned.compression⟩).map
            (.unwrittenEntry planned.name) ∧
      (written.put sink planned data).sources = written.sources := by
  rw [put, if_neg new]
  dsimp only
  cases sink.refuses ⟨planned.name, data, planned.compression⟩ with
  | none => exact ⟨unfailed, rfl⟩
  | some fault => exact ⟨rfl, rfl⟩

variable (sink tree) in
/-- Writing one stored entry goes through its events: it fails as the first failing one does, and
reads the sources of those that are reached. -/
theorem step_events (unfailed : written.failure = none)
    (new : planned.name ∉ written.entries.map (·.name))
    (stored : planned.compression = .stored) :
    (written.step sink tree planned).failure
        = planned.events.findSome? (failure? tree sink) ∧
      (written.step sink tree planned).sources
        = written.sources ++ (reached tree sink planned.events).filterMap source? := by
  obtain ⟨name, payload, compression⟩ := planned
  obtain rfl : compression = .stored := stored
  cases payload with
  | bytes data =>
      obtain ⟨failure, sources⟩ := put_of_new written sink unfailed new data
      rw [PlannedEntry.events, WritingEvent.reached_singleton, List.findSome?_singleton, step,
        failure, sources]
      exact ⟨rfl, (List.append_nil _).symm⟩
  | source source =>
      cases reads : source.read tree with
      | error fault => simp [step, reads, PlannedEntry.events, reached, failure?, source?]
      | ok data =>
          obtain ⟨failure, sources⟩ := put_of_new
            { written with sources := written.sources ++ [source] } sink unfailed new data
          have passed : failure? tree sink (.read name source) = none := by
            simp only [failure?, reads]
          have reaches : reached tree sink [.read name source, .put name (.source source)]
              = [.read name source, .put name (.source source)] := by
            rw [reached, passed, WritingEvent.reached_singleton]
          rw [PlannedEntry.events, reaches, List.findSome?_cons, passed]
          simp only [step, reads, failure, sources, List.findSome?_singleton, failure?,
            Payload.read, true_and]
          rfl

variable (sink tree) in
/-- Writing stored entries with distinct new names goes through their events: it fails as the first
failing one does, and reads the sources of those that are reached. -/
theorem run_events (unfailed : written.failure = none)
    (distinct : (written.entries.map (·.name) ++ plan.map PlannedEntry.name).Nodup)
    (stored : ∀ planned ∈ plan, planned.compression = .stored) :
    (run sink tree written plan).failure
        = (plan.flatMap PlannedEntry.events).findSome? (failure? tree sink) ∧
      (run sink tree written plan).sources
        = written.sources
          ++ (reached tree sink (plan.flatMap PlannedEntry.events)).filterMap source? := by
  induction plan generalizing written with
  | nil => exact ⟨unfailed, (List.append_nil _).symm⟩
  | cons planned later ih =>
      rw [List.map_cons] at distinct
      have new : planned.name ∉ written.entries.map (·.name) := fun known =>
        (List.nodup_append.1 distinct).2.2 _ known _ List.mem_cons_self rfl
      obtain ⟨failure, sources⟩ := step_events sink tree unfailed new
        (stored planned List.mem_cons_self)
      rw [run, unfailed, List.flatMap_cons, List.findSome?_append]
      dsimp only
      cases stepped : (written.step sink tree planned).failure with
      | some reason =>
          -- A failed step is where the run stays, and later events are not reached.
          have stays : run sink tree (written.step sink tree planned) later
              = written.step sink tree planned := by
            cases later with
            | nil => rfl
            | cons next rest => rw [run, stepped]
          rw [stepped] at failure
          rw [stays, stepped, ← failure, WritingEvent.reached_append_of_failure failure.symm]
          exact ⟨rfl, sources⟩
      | none =>
          obtain ⟨entry, yields, added⟩ := exists_yields_of_step stepped
          rw [stepped] at failure
          have passed := List.findSome?_eq_none_iff.1 failure.symm
          have rest := ih stepped (by
            rw [added, List.map_append, List.map_singleton, yields.name, List.append_assoc]
            exact distinct) fun other member => stored other (List.mem_cons_of_mem _ member)
          rw [WritingEvent.reached_of_unfailed passed] at sources
          rw [rest.1, rest.2, sources, ← failure, WritingEvent.reached_append passed,
            List.filterMap_append, Option.none_or, List.append_assoc]
          exact ⟨rfl, rfl⟩

end Written

/-- Whether writing went through events in order: without a failing event there is an archive and
every source was read, and else writing ended with the failure of the first failing event, and the
sources were read that are read before it or by it. -/
structure Written.Follows (written : Written) (tree : Storage.Tree) (sink : Sink)
    (events : List WritingEvent) : Prop where
  completes : (∀ event ∈ events, event.failure? tree sink = none) →
    (∃ entries, written.result = .ok entries) ∧
      written.sources = events.filterMap WritingEvent.source?
  stops : ∀ earlier event later failure, events = earlier ++ event :: later →
    (∀ before ∈ earlier, before.failure? tree sink = none) →
    event.failure? tree sink = some failure →
      written.result = .error failure ∧
        written.sources = (earlier ++ [event]).filterMap WritingEvent.source?

/-- Writing that fails as the first failing event does, and reads the sources of the events that are
reached, goes through them in order. -/
theorem Written.follows_of_reached {written : Written} {tree : Storage.Tree} {sink : Sink}
    {events : List WritingEvent}
    (failure : written.failure = events.findSome? (WritingEvent.failure? tree sink))
    (sources : written.sources
      = (WritingEvent.reached tree sink events).filterMap WritingEvent.source?) :
    written.Follows tree sink events where
  completes := by
    intro unfailed
    rw [List.findSome?_eq_none_iff.2 unfailed] at failure
    rw [WritingEvent.reached_of_unfailed unfailed] at sources
    exact ⟨⟨written.entries, result_eq_ok_iff.2 ⟨failure, rfl⟩⟩, sources⟩
  stops := by
    rintro earlier event later reason rfl unfailed failed
    rw [List.findSome?_append, List.findSome?_eq_none_iff.2 unfailed, Option.none_or,
      List.findSome?_cons, failed] at failure
    rw [WritingEvent.reached_append unfailed, WritingEvent.reached, failed] at sources
    refine ⟨?_, sources⟩
    rw [result, failure]

namespace Draft

/-- The sources that were accepted last, in the order in which their images were first accepted. -/
def History.lastSources (history : History) : List ResourceSource :=
  (history.images.map Prod.fst).eraseDups.filterMap fun path =>
    history.images.reverse.lookup path

/-- Whether sources are those of different accepted images, none of which was replaced by a later
one under its path. -/
def History.AreUnreplaced (history : History) (sources : List ResourceSource) : Prop :=
  ∃ places : List Nat, places.Nodup ∧
    List.Forall₂ (fun place source => ∃ path, history.images[place]? = some (path, source) ∧
      path ∉ (history.images.drop (place + 1)).map Prod.fst) places sources

/-- The images of a draft have the sources that were accepted last. -/
theorem map_snd_images_run (settings : Settings) (operations : List Operation) :
    ((ofSettings settings).run operations).images.toList.map Prod.snd
      = ((ofSettings settings).history operations).lastSources := by
  have consistent := (IsConsistent.ofSettings settings).run operations
  have distinct : (Assignments.keys
      ((ofSettings settings).run operations).images.toList).Nodup := consistent.images.distinct
  rw [Assignments.map_snd_eq_filterMap_keys distinct, images_run, Assignments.keys_ofList,
    History.lastSources]
  simp only [Assignments.get?_ofList]

/-- No image of a draft has a source that was replaced. -/
theorem areUnreplaced_of_prefix {settings : Settings} {operations : List Operation}
    {sources : List ResourceSource}
    (listed : sources <+: ((ofSettings settings).run operations).images.toList.map Prod.snd) :
    ((ofSettings settings).history operations).AreUnreplaced sources := by
  have consistent := (IsConsistent.ofSettings settings).run operations
  have distinct : (Assignments.keys
      ((ofSettings settings).run operations).images.toList).Nodup := consistent.images.distinct
  rw [images_run] at listed distinct
  exact Assignments.exists_last_places distinct listed

/-- Where parts and resources are stored as they are, every planned entry is. -/
theorem compression_of_mem_plan {draft : Draft} {now : Instant}
    (parts : draft.settings.xmlCompression = .stored)
    (media : draft.settings.mediaCompression = .stored) {planned : PlannedEntry}
    (member : planned ∈ draft.plan now) : planned.compression = .stored := by
  rcases List.mem_append.1 member with front | font
  · rcases List.mem_append.1 front with part | image
    · obtain ⟨_, -, rfl⟩ := List.mem_map.1 part
      exact parts
    · obtain ⟨_, -, rfl⟩ := List.mem_map.1 image
      exact media
  · obtain ⟨_, -, rfl⟩ := List.mem_map.1 font
    exact media

/-- A consistent draft whose entries are stored as they are is written through its events. -/
theorem IsConsistent.write_events {draft : Draft} (consistent : draft.IsConsistent)
    (parts : draft.settings.xmlCompression = .stored)
    (media : draft.settings.mediaCompression = .stored) (now : Instant) (tree : Storage.Tree)
    (sink : Sink) :
    (draft.write now tree sink).failure
        = (draft.events now).findSome? (WritingEvent.failure? tree sink) ∧
      (draft.write now tree sink).sources
        = (WritingEvent.reached tree sink (draft.events now)).filterMap WritingEvent.source? := by
  have distinct : (({} : Written).entries.map (·.name)
      ++ (draft.plan now).map PlannedEntry.name).Nodup := by
    rw [map_name_plan]
    exact consistent.nodup_entryNames
  rw [events_eq_flatMap_plan]
  have unfailed : ({} : Written).failure = none := rfl
  have stored : ∀ planned ∈ draft.plan now, planned.compression = .stored := fun _ member =>
    compression_of_mem_plan parts media member
  obtain ⟨failure, sources⟩ := Written.run_events sink tree unfailed distinct stored
  exact ⟨failure, sources.trans (List.nil_append _)⟩

/-- Whatever operations led to a draft whose entries are stored as they are, and whatever sources
and bytes are refused, writing goes through the events of the draft up to the first that fails. The
sources of its events are those that were accepted last, in the order of their images, and no source
is read that was replaced. -/
theorem write_follows_events (settings : Settings) (operations : List Operation) (now : Instant)
    (tree : Storage.Tree) (sink : Sink) (parts : settings.xmlCompression = .stored)
    (media : settings.mediaCompression = .stored) :
    (((ofSettings settings).run operations).write now tree sink).Follows tree sink
        (((ofSettings settings).run operations).events now) ∧
      (((ofSettings settings).run operations).events now).filterMap WritingEvent.source?
        = ((ofSettings settings).history operations).lastSources ∧
      ((ofSettings settings).history operations).AreUnreplaced
        (((ofSettings settings).run operations).write now tree sink).sources := by
  have consistent := (IsConsistent.ofSettings settings).run operations
  have same := settings_run settings operations
  rw [← same] at parts media
  obtain ⟨failure, sources⟩ := consistent.write_events parts media now tree sink
  refine ⟨Written.follows_of_reached failure sources, ?_, ?_⟩
  · rw [filterMap_source?_events]
    exact map_snd_images_run settings operations
  · apply areUnreplaced_of_prefix
    rw [← filterMap_source?_events _ now, sources]
    exact (WritingEvent.reached_prefix _).filterMap _

/-- Operations that register an image twice under different spellings of its target, and in between
one whose source breaks its promise. -/
def interrupted : List Operation := [
  .addImage "media/a.png" (.promised "first" (.ok ⟨#[1]⟩)),
  .addImage "media/b.png" (.promised "broken" (.error (.other "gone"))),
  .addImage "/media/a.png" (.promised "second" (.ok ⟨#[2]⟩))]

/-- The draft of these operations has two images, the first with the source that came second. -/
theorem images_interrupted (settings : Settings) :
    ((ofSettings settings).run interrupted).images.toList = [
      ("word/media/a.png", .promised "second" (.ok ⟨#[2]⟩)),
      ("word/media/b.png", .promised "broken" (.error (.other "gone")))] := by
  have first : ResourceTarget.parse "media/a.png" = .ok ⟨"media/a.png"⟩ := by decide
  have broken : ResourceTarget.parse "media/b.png" = .ok ⟨"media/b.png"⟩ := by decide
  have second : ResourceTarget.parse "/media/a.png" = .ok ⟨"media/a.png"⟩ := by decide
  have accepted : ((ofSettings settings).history interrupted).images = [
      ("word/media/a.png", .promised "first" (.ok ⟨#[1]⟩)),
      ("word/media/b.png", .promised "broken" (.error (.other "gone"))),
      ("word/media/a.png", .promised "second" (.ok ⟨#[2]⟩))] := by
    simp [history, interrupted, recorded, acceptedImage?, addImage, perform, first, broken, second,
      ofSettings, ResourceStore.empty, ResourceStore.contains]
    decide
  rw [images_run, accepted]
  rfl

/-- Writing this draft ends at the image whose source breaks its promise, after the source that
came second was read for the other one. -/
theorem write_interrupted :
    ({ xmlCompression := .stored } : Settings).xmlCompression = .stored ∧
      ({ xmlCompression := .stored } : Settings).mediaCompression = .stored ∧
      (((ofSettings { xmlCompression := .stored }).run interrupted).write ⟨0, 0⟩ {}
        .unrestricted).result = .error (.unreadResource "word/media/b.png" (.other "gone")) ∧
      (((ofSettings { xmlCompression := .stored }).run interrupted).write ⟨0, 0⟩ {}
        .unrestricted).sources = [
          .promised "second" (.ok ⟨#[2]⟩), .promised "broken" (.error (.other "gone"))] := by
  obtain ⟨follows, -, -⟩ := write_follows_events { xmlCompression := .stored } interrupted ⟨0, 0⟩ {}
    .unrestricted rfl rfl
  have images := images_interrupted { xmlCompression := .stored }
  generalize (ofSettings { xmlCompression := .stored }).run interrupted = draft
    at follows images ⊢
  -- The parts are put and the first image is read and put before the other one is read.
  have split : draft.events ⟨0, 0⟩
      = ((draft.parts ⟨0, 0⟩).map (fun part => .put part.1 (.bytes part.2.toUTF8))
          ++ [.read "word/media/a.png" (.promised "second" (.ok ⟨#[2]⟩)),
            .put "word/media/a.png" (.source (.promised "second" (.ok ⟨#[2]⟩)))])
        ++ .read "word/media/b.png" (.promised "broken" (.error (.other "gone")))
          :: .put "word/media/b.png" (.source (.promised "broken" (.error (.other "gone"))))
          :: draft.fonts.toList.map fun font => .put font.1 (.bytes font.2) := by
    simp [events, images]
  obtain ⟨result, sources⟩ := follows.stops _ _ _ _ split (by
    intro before member
    rcases List.mem_append.1 member with part | image
    · obtain ⟨_, -, rfl⟩ := List.mem_map.1 part
      simp [WritingEvent.failure?, Payload.read, Sink.refuses_unrestricted]
    · simp only [List.mem_cons, List.not_mem_nil, or_false] at image
      rcases image with rfl | rfl
      · rfl
      · simp [WritingEvent.failure?, Payload.read, ResourceSource.read,
          Sink.refuses_unrestricted]) rfl
  refine ⟨rfl, rfl, result, sources.trans ?_⟩
  simp only [List.filterMap_append, List.filterMap_map, Function.comp_def, WritingEvent.source?,
    List.filterMap_none, List.nil_append]
  rfl

end Draft

end WordPackage
