/-!
# Faults of archives

Why bytes cannot be opened as an archive, and why an entry of an archive cannot
be read or added.
-/

namespace WordPackage.Archive

/-- A fault of an archive. -/
inductive Fault where
  | noEnd
  | endComment
  | directoryOffset
  | noDirectory
  | wideOffset
  | manyDisks
  | noWideEnd
  | wideLengthLow
  | wideLengthHigh
  | wideLength
  | wideDisk
  | wideCount
  | localHeader
  | unknownMethod
  | encrypted
  | wrongPassword
  | duplicateName
  | unreadable
  deriving DecidableEq, Repr

def Fault.message : Fault → String
  | .noEnd => "invalid Zip archive: Could not find EOCD"
  | .endComment => "invalid Zip archive: EOCD comment exceeds file boundary"
  | .directoryOffset => "invalid Zip archive: Invalid CDFH offset in EOCD"
  | .noDirectory => "invalid Zip archive: No CDFH found"
  | .wideOffset => "invalid Zip archive: Invalid EOCD64 Locator CD offset"
  | .manyDisks => "invalid Zip archive: Multi-disk ZIP files are not supported"
  | .noWideEnd => "invalid Zip archive: Could not find EOCD64"
  | .wideLengthLow => "invalid Zip archive: Low EOCD64 record size"
  | .wideLengthHigh => "invalid Zip archive: EOCD64 extends beyond EOCD64 locator"
  | .wideLength => "invalid Zip archive: Invalid EOCD64: inconsistent length"
  | .wideDisk => "invalid Zip archive: Invalid EOCD64: inconsistency with Locator data"
  | .wideCount => "invalid Zip archive: Invalid EOCD64: inconsistent number of files"
  | .localHeader => "invalid Zip archive: Invalid local file header"
  | .unknownMethod => "unsupported Zip archive: Compression method not supported"
  | .encrypted => "unsupported Zip archive: Password required to decrypt file"
  | .wrongPassword => "provided password is incorrect"
  | .duplicateName => "invalid Zip archive: Duplicate filename"
  | .unreadable => "i/o error"

end WordPackage.Archive
