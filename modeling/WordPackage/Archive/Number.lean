/-!
# Numbers in bytes

An archive keeps its numbers in a fixed number of bytes each, the least
significant byte first. Offsets count all bytes of the archive from zero.
-/

namespace WordPackage.Archive

/-- A number in so many bytes, the least significant first. -/
def numberBytes : Nat → Nat → List UInt8
  | 0, _ => []
  | width + 1, number => (number % 256).toUInt8 :: numberBytes width (number / 256)

/-- The byte at an offset; zero behind the end. -/
def byteAt (bytes : ByteArray) (offset : Nat) : Nat :=
  if within : offset < bytes.size then bytes[offset].toNat else 0

/-- The number that so many bytes from an offset on stand for. -/
def numberAt (bytes : ByteArray) : Nat → Nat → Nat
  | 0, _ => 0
  | width + 1, offset => byteAt bytes offset + 256 * numberAt bytes width (offset + 1)

/-- Whether so many bytes from an offset on are there. -/
def hasBytes (bytes : ByteArray) (offset count : Nat) : Bool :=
  offset + count ≤ bytes.size

/-- Whether a signature stands at an offset. -/
def hasSignature (bytes : ByteArray) (signature offset : Nat) : Bool :=
  hasBytes bytes offset 4 && numberAt bytes 4 offset = signature

/-- The first of so many places from an offset on where a signature stands. -/
def findSignature (bytes : ByteArray) (signature : Nat) : Nat → Nat → Option Nat
  | 0, _ => none
  | places + 1, offset =>
      if hasSignature bytes signature offset then some offset
      else findSignature bytes signature places (offset + 1)

end WordPackage.Archive
