import WordPackage.Archive.Number

/-!
# Bits of a stream

A deflated stream is read bit by bit, each byte from its least significant bit
on. Reading numbers never goes back, and reading a bit takes one: the loops over
a stream end by these lemmas.
-/

namespace WordPackage.Archive.Deflate

/-- Why a stream cannot be expanded. -/
inductive StreamFault where
  | cut
  | damaged
  deriving DecidableEq, Repr

/-- The bits of bytes from a position on. -/
structure Bits where
  bytes : ByteArray
  position : Nat := 0

namespace Bits

/-- Number of bits still to come. -/
def remaining (bits : Bits) : Nat :=
  8 * bits.bytes.size - bits.position

/-- The bits after so many more are passed. -/
def advance (bits : Bits) (count : Nat) : Bits :=
  { bits with position := bits.position + count }

@[simp] theorem remaining_advance (bits : Bits) (count : Nat) :
    (bits.advance count).remaining = bits.remaining - count := by
  simp only [remaining, advance]
  omega

/-- The bit at a position, zero or one. -/
def bitAt (bytes : ByteArray) (position : Nat) : Nat :=
  byteAt bytes (position / 8) >>> (position % 8) % 2

/-- The number that so many bits from a position on stand for, the least
significant first. -/
def numberAt (bytes : ByteArray) : Nat → Nat → Nat
  | 0, _ => 0
  | count + 1, position => bitAt bytes position + 2 * numberAt bytes count (position + 1)

/-- A number of so many bits and the bits after it, if so many are left. -/
def take (bits : Bits) (count : Nat) : Except StreamFault (Nat × Bits) :=
  if count ≤ bits.remaining then
    .ok (numberAt bits.bytes count bits.position, bits.advance count)
  else .error .cut

theorem remaining_of_take {bits rest : Bits} {count number : Nat}
    (taken : bits.take count = .ok (number, rest)) :
    rest.remaining + count = bits.remaining := by
  unfold take at taken
  split at taken
  · cases taken
    simp only [remaining_advance]
    omega
  · simp at taken

/-- The bits from the next whole byte on. -/
def align (bits : Bits) : Bits :=
  { bits with position := 8 * ((bits.position + 7) / 8) }

end Bits

end WordPackage.Archive.Deflate
