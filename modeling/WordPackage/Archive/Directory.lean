import WordPackage.Archive.Fault
import WordPackage.Archive.Header

/-!
# Central directories

An archive is opened from its back. An end record says where the central
directory starts and how many headers it has. Where its numbers do not suffice,
a locator right before it leads to a wide end record. Bytes before the archive
shift all offsets: the first header, or the wide end record, at or behind the
recorded place tells by how much.

The last end record with a central directory that can be read is that of the
archive. What follows it is ignored.
-/

namespace WordPackage.Archive

/-- A central directory that is still to be read. -/
structure Directory where
  start : Nat
  shift : Nat
  count : Nat
  /-- Whether the end record makes sense: it lies on the disk of the directory and
  does not contradict itself. -/
  isSound : Bool
  deriving DecidableEq, Repr

namespace Directory

/-- Read so many headers from an offset on. The local header of each entry starts
before the central directory. -/
def headersFrom? (directory : Directory) (bytes : ByteArray) : Nat → Nat → Option (List Header)
  | 0, _ => some []
  | count + 1, offset => do
      let (header, next) ← readHeader? bytes offset
      let header := { header with offset := header.offset + directory.shift }
      if header.offset < directory.start then
        return header :: (← directory.headersFrom? bytes count next)
      else none

/-- The headers of a directory; none if it cannot be read. -/
def headers? (directory : Directory) (bytes : ByteArray) : Option (List Header) :=
  if directory.isSound then directory.headersFrom? bytes directory.count directory.start
  else none

end Directory

/-- What leads to a wide end record. -/
structure Locator where
  offset : Nat
  disk : Nat
  recorded : Nat
  disks : Nat
  deriving DecidableEq, Repr

/-- The locator right before an end record. -/
def locator? (bytes : ByteArray) (offset : Nat) : Option Locator :=
  let start := offset - 20
  if 20 ≤ offset && hasSignature bytes 0x07064B50 start then
    some {
      offset := start
      disk := numberAt bytes 4 (start + 4)
      recorded := numberAt bytes 8 (start + 8)
      disks := numberAt bytes 4 (start + 16) }
  else none

namespace Locator

/-- The directory of the wide end record at an offset. -/
def directoryAt (locator : Locator) (bytes : ByteArray) (offset : Nat) :
    Except Fault Directory :=
  let length := numberAt bytes 8 (offset + 4)
  let wanted := locator.offset - offset
  let disk := numberAt bytes 4 (offset + 20)
  let total := numberAt bytes 8 (offset + 32)
  let recorded := numberAt bytes 8 (offset + 48)
  if !hasBytes bytes offset 56 then .error .unreadable
  else if length < 44 then .error .wideLengthLow
  else if wanted < length + 12 then .error .wideLengthHigh
  else if disk ≠ locator.disk then .error .wideDisk
  else if length + 12 < wanted then .error .wideLength
  else if offset < 46 * total + recorded then .error .wideCount
  else
    let shift := offset - locator.recorded
    .ok {
      start := recorded + shift
      shift
      count := total
      isSound := numberAt bytes 8 (offset + 24) ≤ total
        && numberAt bytes 2 (offset + 14) ≤ numberAt bytes 2 (offset + 12)
        && numberAt bytes 4 (offset + 16) = disk }

/-- Search a wide end record in so many places from an offset on. -/
def search (locator : Locator) (bytes : ByteArray) (met : Fault) :
    Nat → Nat → Except Fault Directory
  | 0, _ => .error met
  | places + 1, offset =>
      if hasSignature bytes 0x06064B50 offset then
        match locator.directoryAt bytes offset with
        | .ok directory => .ok directory
        | .error fault => locator.search bytes fault places (offset + 1)
      else locator.search bytes met places (offset + 1)

/-- The directory that a locator leads to. -/
def directory (locator : Locator) (bytes : ByteArray) : Except Fault Directory :=
  if locator.offset ≤ locator.recorded then .error .wideOffset
  else if 1 < locator.disks then .error .manyDisks
  else locator.search bytes .noWideEnd (locator.offset - locator.recorded) locator.recorded

end Locator

/-- The directory of an end record without a wide one. An archive that has no
entries at all needs no directory. -/
def narrowDirectory (bytes : ByteArray) (offset : Nat) : Except Fault Directory :=
  let recorded := numberAt bytes 4 (offset + 16)
  let startingAt (start : Nat) : Directory := {
    start
    shift := start - recorded
    count := numberAt bytes 2 (offset + 8)
    isSound := numberAt bytes 2 (offset + 4) = numberAt bytes 2 (offset + 6) }
  if numberAt bytes 2 (offset + 10) = 0 then .ok (startingAt (max recorded offset))
  else if offset ≤ recorded then .error .directoryOffset
  else
    match findSignature bytes 0x02014B50 (offset - recorded) recorded with
    | none => .error .noDirectory
    | some start => .ok (startingAt start)

/-- The directory of the end record at an offset. -/
def directoryAt (bytes : ByteArray) (offset : Nat) : Except Fault Directory :=
  let isWide := numberAt bytes 2 (offset + 10) = 0xFFFF
    || numberAt bytes 4 (offset + 16) = 0xFFFFFFFF
  match if isWide then locator? bytes offset else none with
  | some locator => locator.directory bytes
  | none => narrowDirectory bytes offset

/-- Why the end record at an offset is cut, if it or its comment is not there in full. -/
def cutEnd? (bytes : ByteArray) (offset : Nat) : Option Fault :=
  if !hasBytes bytes offset 22 then some .unreadable
  else if !hasBytes bytes offset (22 + numberAt bytes 2 (offset + 20)) then some .endComment
  else none

/-- Search the end record backwards through so many places, and read its central
directory. Faults of end records are forgotten once a directory was found that
cannot be read; of the others the last one met is told, a cut record last. -/
def headersBefore (bytes : ByteArray) (met : Option Fault) : Nat → Except Fault (List Header)
  | 0 => .error (met.getD .noEnd)
  | place + 1 =>
      if !hasSignature bytes 0x06054B50 place then headersBefore bytes met place
      else
        match cutEnd? bytes place with
        | some fault => headersBefore bytes (met.or (some fault)) place
        | none =>
            match directoryAt bytes place with
            | .error fault => headersBefore bytes (some fault) place
            | .ok directory =>
                match directory.headers? bytes with
                | some headers => .ok headers
                | none => headersBefore bytes none place

/-- The headers of an archive in the order of its central directory. -/
def headers (bytes : ByteArray) : Except Fault (List Header) :=
  headersBefore bytes none bytes.size

end WordPackage.Archive
