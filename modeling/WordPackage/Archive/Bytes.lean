import WordPackage.Archive.Checksum
import WordPackage.Archive.Entry
import WordPackage.Archive.Number

/-!
# Archives as bytes

An archive is written as its entries, each behind a local header, then a central
directory with a header for each entry, then the end record. Compressed entries
are deflated in blocks that keep their bytes, and every entry is dated to the
first day of 1980, so equal entries give equal bytes. Sizes and offsets have 32
bits and the number of entries 16.
-/

namespace WordPackage.Archive

/-- Numbers one after another, each with its width in bytes. -/
def fieldBytes (fields : List (Nat × Nat)) : List UInt8 :=
  fields.flatMap fun field => numberBytes field.1 field.2

/-- The greatest number of bytes in one block of a deflated stream. -/
def blockSize : Nat := 65535

/-- A block of a deflated stream that keeps its bytes. -/
def storedBlock (last : Bool) (data : ByteArray) : ByteArray :=
  (fieldBytes [(1, last.toNat), (2, data.size), (2, blockSize - data.size)]).toByteArray ++ data

/-- The blocks of a deflated stream from an offset on. The first argument is the
number of full blocks before the last one. -/
def blocksFrom (data : ByteArray) : Nat → Nat → ByteArray
  | 0, offset => storedBlock true (data.extract offset data.size)
  | full + 1, offset =>
      storedBlock false (data.extract offset (offset + blockSize))
        ++ blocksFrom data full (offset + blockSize)

/-- A deflated stream for bytes. -/
def deflate (data : ByteArray) : ByteArray :=
  blocksFrom data ((data.size - 1) / blockSize) 0

namespace Entry

/-- The bytes of an entry as an archive keeps them. -/
def payload (entry : Entry) : ByteArray :=
  match entry.compression with
  | .stored => entry.data
  | .deflated => deflate entry.data

/-- The number that stands for the compression of an entry. -/
def method (entry : Entry) : Nat :=
  match entry.compression with
  | .stored => 0
  | .deflated => 8

/-- The fields that the two headers of an entry share: version, flags, method,
time, date, checksum, sizes and lengths. The flag says that the name is UTF-8. -/
def sharedFields (entry : Entry) : List (Nat × Nat) :=
  [(2, 20), (2, 0x0800), (2, entry.method), (2, 0), (2, 0x21),
    (4, (checksum entry.data).toNat), (4, entry.payload.size), (4, entry.data.size),
    (2, entry.name.utf8ByteSize), (2, 0)]

/-- An entry behind its local header. -/
def localRecord (entry : Entry) : ByteArray :=
  (fieldBytes ((4, 0x04034B50) :: entry.sharedFields)).toByteArray
    ++ entry.name.toUTF8 ++ entry.payload

/-- The header of an entry in the central directory. -/
def directoryRecord (entry : Entry) (offset : Nat) : ByteArray :=
  (fieldBytes ((4, 0x02014B50) :: (2, 20) :: entry.sharedFields
      ++ [(2, 0), (2, 0), (2, 0), (4, 0), (4, offset)])).toByteArray
    ++ entry.name.toUTF8

end Entry

/-- The local records of entries, and the central directory of entries whose
first local record has the given offset. -/
def records : List Entry → Nat → ByteArray × ByteArray
  | [], _ => (.empty, .empty)
  | entry :: later, offset =>
      let rest := records later (offset + entry.localRecord.size)
      (entry.localRecord ++ rest.1, entry.directoryRecord offset ++ rest.2)

/-- An archive as bytes. -/
def toBytes (entries : List Entry) : ByteArray :=
  let parts := records entries 0
  parts.1 ++ parts.2 ++
    (fieldBytes [(4, 0x06054B50), (2, 0), (2, 0), (2, entries.length), (2, entries.length),
      (4, parts.2.size), (4, parts.1.size), (2, 0)]).toByteArray

end WordPackage.Archive
