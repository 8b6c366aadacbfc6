import WordPackage.Archive.Deflate.Expansion
import WordPackage.Archive.Directory
import WordPackage.Storage.Fault

/-!
# Entries of opened archives

An archive that was opened is its bytes and the headers of its central
directory. The bytes of an entry stand behind its local header, as they are or
deflated, and must have the recorded checksum. They are read when asked for.
-/

namespace WordPackage.Archive

/-- Why the bytes of an entry cannot be had. -/
inductive ReadFault where
  | archive (fault : Fault)
  | storage (fault : Storage.Fault)
  deriving DecidableEq, Repr

/-- The bytes that an archive keeps for an entry, as far as they are there. -/
def keptBytes (bytes : ByteArray) (header : Header) : ByteArray :=
  let start := header.offset + 30 + numberAt bytes 2 (header.offset + 26)
    + numberAt bytes 2 (header.offset + 28)
  bytes.extract start (start + header.keptSize)

/-- The bytes of an entry. -/
def read (bytes : ByteArray) (header : Header) : Except ReadFault ByteArray :=
  let checked (data : ByteArray) : Except ReadFault ByteArray :=
    if checksum data = header.checksum then .ok data else .error (.storage .checksum)
  if header.isEncrypted then .error (.archive .encrypted)
  else if !hasBytes bytes header.offset 30 then .error (.archive .unreadable)
  else if !hasSignature bytes 0x04034B50 header.offset then .error (.archive .localHeader)
  else if header.method ≠ 0 && header.method ≠ 8 then .error (.archive .unknownMethod)
  else if header.isKeyed then .error (.archive .wrongPassword)
  else if header.method = 0 then checked (keptBytes bytes header)
  else
    match Deflate.expand (keptBytes bytes header) with
    | .ok data => checked data
    | .error .cut => .error (.storage .cutStream)
    | .error .damaged => .error (.storage .damagedStream)

end WordPackage.Archive
