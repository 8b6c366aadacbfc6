import WordPackage.Archive.Bytes
import WordPackage.Draft.Parts

/-!
# Writing drafts

A draft is written entry by entry: the parts, then the images, then the fonts.
The source of an image is read right before its entry is written. Writing stops
at the first source that fails, the first entry whose bytes are refused, or a
name that was written before; the entries up to there are written.
-/

namespace WordPackage

/-- Where the bytes of an entry come from when it is written. -/
inductive Payload where
  | bytes (data : ByteArray)
  | source (source : ResourceSource)

/-- An entry that is to be written. -/
structure PlannedEntry where
  name : String
  payload : Payload
  compression : Compression

/-- What takes the entries of an archive. -/
structure Sink where
  /-- Why the bytes of an entry are refused, if they are. -/
  refusal : Archive.Entry → Option Storage.Fault

namespace Sink

/-- The sink that takes everything. -/
def unrestricted : Sink := ⟨fun _ => none⟩

/-- Why an entry cannot be written, if it cannot. Where there are no bytes, none
can be refused. -/
def refuses (sink : Sink) (entry : Archive.Entry) : Option Storage.Fault :=
  if entry.data.isEmpty then none else sink.refusal entry

end Sink

/-- How far the writing of a draft came. -/
structure Written where
  entries : List Archive.Entry := []
  sources : List ResourceSource := []
  failure : Option Failure := none

namespace Written

/-- Write one entry with the given bytes. -/
def put (written : Written) (sink : Sink) (entry : PlannedEntry) (data : ByteArray) : Written :=
  if entry.name ∈ written.entries.map Archive.Entry.name then
    { written with failure := some (.archive .duplicateName) }
  else
    let complete : Archive.Entry := ⟨entry.name, data, entry.compression⟩
    match sink.refuses complete with
    | some fault => { written with failure := some (.unwrittenEntry entry.name fault) }
    | none => { written with entries := written.entries ++ [complete] }

/-- Write one entry, given the files there are. -/
def step (written : Written) (sink : Sink) (tree : Storage.Tree) (entry : PlannedEntry) :
    Written :=
  match entry.payload with
  | .bytes data => written.put sink entry data
  | .source source =>
      let called := { written with sources := written.sources ++ [source] }
      match source.read tree with
      | .ok data => called.put sink entry data
      | .error fault => { called with failure := some (.unreadResource entry.name fault) }

/-- Write entries one after another, up to the first failure. -/
def run (sink : Sink) (tree : Storage.Tree) (written : Written) : List PlannedEntry → Written
  | [] => written
  | entry :: later =>
      match written.failure with
      | some _ => written
      | none => run sink tree (written.step sink tree entry) later

/-- The archive, or why it could not be written. -/
def result (written : Written) : Except Failure (List Archive.Entry) :=
  match written.failure with
  | none => .ok written.entries
  | some failure => .error failure

end Written

namespace Draft

/-- The entries of a draft that is written at an instant, in the order of writing. -/
def plan (draft : Draft) (now : Instant) : List PlannedEntry :=
  ((draft.parts now).map fun part =>
      ⟨part.1, .bytes part.2.toUTF8, draft.settings.xmlCompression⟩)
    ++ (draft.images.toList.map fun image =>
      ⟨image.1, .source image.2, draft.settings.mediaCompression⟩)
    ++ draft.fonts.toList.map fun font =>
      ⟨font.1, .bytes font.2, draft.settings.mediaCompression⟩

/-- Write a draft at an instant, given the files there are. -/
def write (draft : Draft) (now : Instant) (tree : Storage.Tree) (sink : Sink) : Written :=
  Written.run sink tree {} (draft.plan now)

end Draft

end WordPackage
