/-!
# Checksums

The cyclic redundancy check of 32 bits that archives record for every entry, by
the reversed polynomial `0xEDB88320`.
-/

namespace WordPackage.Archive

/-- One step of the division by the polynomial. -/
def checksumBit (remainder : UInt32) : UInt32 :=
  if remainder &&& 1 = 1 then (remainder >>> 1) ^^^ 0xEDB88320 else remainder >>> 1

/-- The remainder after one more byte. -/
def checksumByte (remainder : UInt32) (byte : UInt8) : UInt32 :=
  (List.range 8).foldl (fun shifted _ => checksumBit shifted) (remainder ^^^ byte.toUInt32)

def checksum (bytes : ByteArray) : UInt32 :=
  bytes.foldl checksumByte 0xFFFFFFFF ^^^ 0xFFFFFFFF

end WordPackage.Archive
