import WordPackage.Archive.Deflate.Expansion
import WordPackage.Proofs.Archive.Layout

/-!
# Deflated streams are expanded again

Streams are written as blocks that keep their bytes. Such a block starts on a whole byte, so the
numbers in front of its bytes are read bit by bit as they are read byte by byte. Reading one block
leads to the start of the next, and from there by induction to the end of the stream.
-/

namespace WordPackage.Archive

open Deflate

namespace Deflate.Bits

variable {bytes : ByteArray}

theorem byteAt_lt (bytes : ByteArray) (offset : Nat) : byteAt bytes offset < 256 := by
  unfold byteAt
  split
  · exact UInt8.toNat_lt _
  · decide

theorem bitAt_eq {place : Nat} (within : place < 8) (offset : Nat) :
    bitAt bytes (8 * offset + place) = byteAt bytes offset / 2 ^ place % 2 := by
  have whole : (8 * offset + place) / 8 = offset := by omega
  have rest : (8 * offset + place) % 8 = place := by omega
  rw [bitAt, whole, rest, Nat.shiftRight_eq_div_pow]

theorem numberAt_three (offset : Nat) :
    numberAt bytes 3 (8 * offset) = byteAt bytes offset % 8 := by
  have first : bitAt bytes (8 * offset) = byteAt bytes offset / 2 ^ 0 % 2 :=
    @bitAt_eq bytes 0 (by decide) offset
  simp (disch := decide) only [numberAt, Nat.add_assoc, Nat.reduceAdd, first, bitAt_eq]
  omega

/-- Whole bytes are read bit by bit as they are read byte by byte. -/
theorem numberAt_whole (width offset : Nat) :
    numberAt bytes (8 * width) (8 * offset) = Archive.numberAt bytes width offset := by
  induction width generalizing offset with
  | zero => rfl
  | succ width ih =>
      have first : bitAt bytes (8 * offset) = byteAt bytes offset / 2 ^ 0 % 2 :=
        @bitAt_eq bytes 0 (by decide) offset
      have small := byteAt_lt bytes offset
      have later := ih (offset + 1)
      rw [Nat.mul_add] at later
      rw [Archive.numberAt, Nat.mul_add, ← later]
      simp (disch := decide) only [numberAt, Nat.add_assoc, Nat.reduceAdd, Nat.reduceMul, first,
        bitAt_eq]
      omega

end Deflate.Bits

theorem Deflate.Bits.take_eq_ok {bits : Bits} {count : Nat} (room : count ≤ bits.remaining) :
    bits.take count = .ok (Bits.numberAt bits.bytes count bits.position, bits.advance count) :=
  if_pos room

section Block

variable {bytes data : ByteArray} {offset : Nat} {last : Bool}
  (stands : StandsAt bytes offset (storedBlock last data).data.toList)

include stands

/-- Behind the bits that say how it is kept, a block is read up to the start of the next one. -/
theorem expandKept_storedBlock (output : ByteArray) (fits : data.size ≤ blockSize) :
    expandKept output ⟨bytes, 8 * offset + 3⟩
      = .ok (output ++ data, ⟨bytes, 8 * (offset + (5 + data.size))⟩) := by
  obtain ⟨⟨-, size, complement, -⟩, kept, room⟩ := StandsAt.record stands 5 rfl (by decide)
  rw [blockSize] at fits complement
  rw [Nat.mod_eq_of_lt (by omega)] at size complement
  have number : Bits.numberAt bytes 32 (8 * (offset + 1))
      = data.size + 65536 * (65535 - data.size) := by
    rw [Bits.numberAt_whole 4, numberAt_add 2 2, size, complement]
    rfl
  have aligned : Bits.align ⟨bytes, 8 * offset + 3⟩ = ⟨bytes, 8 * (offset + 1)⟩ := by
    simp only [Bits.align, Bits.mk.injEq, true_and]
    omega
  have lengths : Bits.take ⟨bytes, 8 * (offset + 1)⟩ 32
      = .ok (data.size + 65536 * (65535 - data.size), ⟨bytes, 8 * (offset + 5)⟩) := by
    rw [Bits.take_eq_ok (by simp only [Bits.remaining]; omega), number]
    rfl
  have least : (data.size + 65536 * (65535 - data.size)) % 65536 = data.size := by omega
  have greatest : (data.size + 65536 * (65535 - data.size)) / 65536 = 65535 - data.size := by
    omega
  have sum : data.size + (65535 - data.size) = 65535 := by omega
  have enough : ¬ Bits.remaining ⟨bytes, 8 * (offset + 5)⟩ < 8 * data.size := by
    simp only [Bits.remaining]
    omega
  have start : 8 * (offset + 5) / 8 = offset + 5 := by omega
  have next : Bits.advance ⟨bytes, 8 * (offset + 5)⟩ (8 * data.size)
      = ⟨bytes, 8 * (offset + (5 + data.size))⟩ := by
    simp only [Bits.advance, Bits.mk.injEq, true_and]
    omega
  rw [expandKept, aligned, lengths]
  simp only [bind, Except.bind, least, greatest, sum, demand, decide_true, if_true, enough,
    if_false, start, next, kept.extract]
  rfl

/-- A block that keeps its bytes is read up to the start of the next one. -/
theorem expandBlocks_storedBlock (bound : Nat) (output : ByteArray)
    (fits : data.size ≤ blockSize) :
    expandBlocks (bound + 1) output ⟨bytes, 8 * offset⟩
      = if last then .ok (output ++ data)
        else expandBlocks bound (output ++ data) ⟨bytes, 8 * (offset + (5 + data.size))⟩ := by
  obtain ⟨⟨head, -⟩, -, room⟩ := StandsAt.record stands 5 rfl (by decide)
  have small : last.toNat < 2 := Bool.toNat_lt last
  have first : Bits.take ⟨bytes, 8 * offset⟩ 3
      = .ok (last.toNat, ⟨bytes, 8 * offset + 3⟩) := by
    have byte : byteAt bytes offset = last.toNat % 256 := head
    have bits : last.toNat % 256 % 8 = last.toNat := by omega
    rw [Bits.take_eq_ok (by simp only [Bits.remaining]; omega), Bits.numberAt_three, byte, bits]
    rfl
  have kind : last.toNat / 2 = 0 := by omega
  rw [expandBlocks, first]
  simp only [bind, Except.bind, kind, expandBlock, expandKept_storedBlock stands output fits]
  cases last with
  | true => rfl
  | false => rfl

end Block

variable {bytes data : ByteArray}

theorem size_storedBlock (last : Bool) (data : ByteArray) :
    (storedBlock last data).size = 5 + data.size := by
  rw [storedBlock, ByteArray.size_append, List.size_toByteArray]
  rfl

/-- A stream has more bytes than blocks. -/
theorem lt_size_blocksFrom (data : ByteArray) (full offset : Nat) :
    full < (blocksFrom data full offset).size := by
  induction full generalizing offset with
  | zero =>
      rw [blocksFrom, size_storedBlock]
      omega
  | succ full ih =>
      have later := ih (offset + blockSize)
      rw [blocksFrom, ByteArray.size_append, size_storedBlock]
      omega

/-- The blocks of a stream are read from the first to the last. -/
theorem expandBlocks_blocksFrom {full bound start offset : Nat} (output : ByteArray)
    (enough : full < bound) (least : start + blockSize * full ≤ data.size)
    (greatest : data.size ≤ start + blockSize * (full + 1))
    (stands : StandsAt bytes offset (blocksFrom data full start).data.toList) :
    expandBlocks bound output ⟨bytes, 8 * offset⟩ = .ok (output ++ data.extract start data.size) := by
  -- Every block but the last is full, so the next one starts a fixed number of bytes further on.
  induction full generalizing bound start offset output with
  | zero =>
      obtain ⟨bound, rfl⟩ := Nat.exists_eq_add_one_of_ne_zero (Nat.ne_of_gt enough)
      have fits : (data.extract start data.size).size ≤ blockSize := by
        rw [ByteArray.size_extract]
        omega
      rw [expandBlocks_storedBlock stands bound output fits]
      rfl
  | succ full ih =>
      obtain ⟨bound, rfl⟩ :=
        Nat.exists_eq_add_one_of_ne_zero (Nat.ne_of_gt (Nat.zero_lt_of_lt enough))
      have least' : start + blockSize + blockSize * full ≤ data.size := by
        rw [Nat.mul_add] at least
        omega
      have greatest' : data.size ≤ start + blockSize + blockSize * (full + 1) := by
        rw [Nat.mul_add] at greatest
        omega
      have size : (data.extract start (start + blockSize)).size = blockSize := by
        rw [ByteArray.size_extract]
        omega
      rw [blocksFrom] at stands
      obtain ⟨first, later⟩ := stands.parts
      rw [size_storedBlock] at later
      rw [expandBlocks_storedBlock first bound output (Nat.le_of_eq size),
        if_neg Bool.false_ne_true, ih _ (Nat.lt_of_succ_lt_succ enough) least' greatest' later,
        ByteArray.append_assoc, ByteArray.extract_append_extract, Nat.min_eq_left, Nat.max_eq_right]
      · omega
      · omega

/-- A deflated stream is expanded to what was deflated. -/
theorem expand_deflate (data : ByteArray) : expand (deflate data) = .ok data := by
  have stands : StandsAt (deflate data) 0 (deflate data).data.toList := List.prefix_rfl
  have positive : 0 < blockSize := by decide
  have least : 0 + blockSize * ((data.size - 1) / blockSize) ≤ data.size := by
    have below := Nat.mul_div_le (data.size - 1) blockSize
    omega
  have greatest : data.size ≤ 0 + blockSize * ((data.size - 1) / blockSize + 1) := by
    have above := Nat.lt_mul_div_succ (data.size - 1) positive
    omega
  have enough : (data.size - 1) / blockSize < Bits.remaining ⟨deflate data, 0⟩ := by
    have blocks := lt_size_blocksFrom data ((data.size - 1) / blockSize) 0
    show _ < 8 * (blocksFrom data ((data.size - 1) / blockSize) 0).size - 0
    omega
  have expands := expandBlocks_blocksFrom .empty enough least greatest stands
  rw [ByteArray.empty_append, ByteArray.extract_zero_size] at expands
  exact expands

end WordPackage.Archive
