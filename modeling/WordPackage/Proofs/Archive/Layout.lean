import Mathlib.Algebra.Group.Nat.Defs
import Mathlib.Data.List.Basic
import WordPackage.Archive.Bytes

/-!
# What stands in an archive

A number or a text is read from an archive by its offset. What stands there is said of the bytes as
a list, so that the fields of a record are known one after another from the record as a whole.
-/

namespace WordPackage.Archive

/-- Whether some bytes stand in an archive from an offset on. -/
def StandsAt (bytes : ByteArray) (offset : Nat) (chunk : List UInt8) : Prop :=
  chunk <+: bytes.data.toList.drop offset

variable {bytes data : ByteArray} {offset : Nat} {front back chunk : List UInt8}

@[simp] theorem length_data (bytes : ByteArray) : bytes.data.toList.length = bytes.size := rfl

theorem standsAt_append_iff :
    StandsAt bytes offset (front ++ back) ↔
      StandsAt bytes offset front ∧ StandsAt bytes (offset + front.length) back := by
  unfold StandsAt
  constructor
  · rintro ⟨rest, split⟩
    rw [List.append_assoc] at split
    refine ⟨⟨back ++ rest, split⟩, rest, ?_⟩
    rw [← List.drop_drop, ← split, List.drop_left]
  · rintro ⟨⟨middle, split⟩, ⟨rest, later⟩⟩
    rw [← List.drop_drop, ← split, List.drop_left] at later
    exact ⟨rest, by rw [List.append_assoc, later, split]⟩

theorem StandsAt.left (stands : StandsAt bytes offset (front ++ back)) :
    StandsAt bytes offset front :=
  (standsAt_append_iff.1 stands).1

theorem StandsAt.right (stands : StandsAt bytes offset (front ++ back)) :
    StandsAt bytes (offset + front.length) back :=
  (standsAt_append_iff.1 stands).2

/-- What is put together of two parts stands as the one behind the other. -/
theorem StandsAt.parts {front back : ByteArray}
    (stands : StandsAt bytes offset (front ++ back).data.toList) :
    StandsAt bytes offset front.data.toList ∧
      StandsAt bytes (offset + front.size) back.data.toList := by
  rw [ByteArray.data_append, Array.toList_append] at stands
  exact standsAt_append_iff.1 stands

theorem StandsAt.add_length_le (stands : StandsAt bytes offset chunk)
    (positive : 0 < chunk.length) : offset + chunk.length ≤ bytes.size := by
  have fits : chunk.length ≤ (bytes.data.toList.drop offset).length := List.IsPrefix.length_le stands
  rw [List.length_drop, length_data bytes] at fits
  omega

theorem StandsAt.byteAt {byte : UInt8} (stands : StandsAt bytes offset [byte]) :
    byteAt bytes offset = byte.toNat := by
  have room := stands.add_length_le Nat.one_pos
  have within : offset < bytes.data.toList.length := by
    rw [length_data]
    exact room
  obtain ⟨rest, split⟩ := stands
  rw [List.drop_eq_getElem_cons within] at split
  obtain ⟨same, -⟩ := List.cons.inj split
  rw [Archive.byteAt, dif_pos (show offset < bytes.size from room),
    ByteArray.getElem_eq_getElem_data, same, Array.getElem_toList]

/-- A number that stands in so many bytes is read, as far as the bytes suffice for it. -/
theorem StandsAt.numberAt {width number : Nat}
    (stands : StandsAt bytes offset (numberBytes width number)) :
    numberAt bytes width offset = number % 256 ^ width := by
  induction width generalizing offset number with
  | zero => exact (Nat.mod_one number).symm
  | succ width ih =>
      have split : StandsAt bytes offset
          ([(number % 256).toUInt8] ++ numberBytes width (number / 256)) := stands
      have first := split.left
      have later := split.right
      rw [List.length_singleton] at later
      rw [Archive.numberAt, first.byteAt, ih later, Nat.pow_succ', Nat.mod_mul]
      congr 1
      rw [Nat.toUInt8_eq, UInt8.toNat_ofNat', Nat.mod_mod]

theorem hasBytes_iff {count : Nat} : hasBytes bytes offset count ↔ offset + count ≤ bytes.size := by
  rw [hasBytes, decide_eq_true_iff]

theorem hasSignature_iff {signature : Nat} :
    hasSignature bytes signature offset ↔
      offset + 4 ≤ bytes.size ∧ Archive.numberAt bytes 4 offset = signature := by
  rw [hasSignature, Bool.and_eq_true, hasBytes_iff, decide_eq_true_iff]

theorem length_numberBytes (width number : Nat) : (numberBytes width number).length = width := by
  induction width generalizing number with
  | zero => rfl
  | succ width ih => rw [numberBytes, List.length_cons, ih]

/-- The number of bytes that numbers take one after another. -/
def fieldsLength : List (Nat × Nat) → Nat
  | [] => 0
  | field :: fields => field.1 + fieldsLength fields

theorem length_fieldBytes (fields : List (Nat × Nat)) :
    (fieldBytes fields).length = fieldsLength fields := by
  induction fields with
  | nil => rfl
  | cons field fields ih =>
      obtain ⟨width, number⟩ := field
      have split : fieldBytes ((width, number) :: fields)
          = numberBytes width number ++ fieldBytes fields := rfl
      rw [split, List.length_append, length_numberBytes, ih, fieldsLength]

/-- A number is read in two parts, the less significant one first. -/
theorem numberAt_add (width further offset : Nat) :
    numberAt bytes (width + further) offset
      = numberAt bytes width offset + 256 ^ width * numberAt bytes further (offset + width) := by
  induction width generalizing offset with
  | zero => simp [numberAt]
  | succ width ih =>
      have behind : offset + 1 + width = offset + (width + 1) := by omega
      rw [Nat.add_right_comm, numberAt, numberAt, ih, behind, Nat.mul_add, Nat.pow_succ',
        Nat.mul_assoc, Nat.add_assoc]

/-- Whether numbers are read one after another, each as far as its bytes suffice for it. -/
def ReadsFields (bytes : ByteArray) : Nat → List (Nat × Nat) → Prop
  | _, [] => True
  | offset, (width, number) :: fields =>
      numberAt bytes width offset = number % 256 ^ width ∧
        ReadsFields bytes (offset + width) fields

theorem StandsAt.readsFields {fields : List (Nat × Nat)}
    (stands : StandsAt bytes offset (fieldBytes fields)) : ReadsFields bytes offset fields := by
  induction fields generalizing offset with
  | nil => trivial
  | cons field fields ih =>
      obtain ⟨width, number⟩ := field
      have split : StandsAt bytes offset (numberBytes width number ++ fieldBytes fields) := stands
      have later := split.right
      rw [length_numberBytes] at later
      exact ⟨split.left.numberAt, ih later⟩

/-- A record is read as its fields, of a known length in all, and what stands behind them. -/
theorem StandsAt.record {fields : List (Nat × Nat)}
    (stands : StandsAt bytes offset ((fieldBytes fields).toByteArray ++ data).data.toList)
    (length : Nat) (sum : fieldsLength fields = length) (positive : 0 < length) :
    ReadsFields bytes offset fields ∧ StandsAt bytes (offset + length) data.data.toList ∧
      offset + (length + data.size) ≤ bytes.size := by
  rw [ByteArray.data_append, Array.toList_append, List.data_toByteArray] at stands
  have room := stands.add_length_le
  have behind := stands.right
  rw [List.length_append, length_fieldBytes, length_data data, sum] at room
  rw [length_fieldBytes, sum] at behind
  exact ⟨stands.left.readsFields, behind, room (by omega)⟩

theorem StandsAt.extract (stands : StandsAt bytes offset data.data.toList) :
    bytes.extract offset (offset + data.size) = data := by
  apply ByteArray.ext
  apply Array.toList_inj.1
  obtain ⟨rest, split⟩ := stands
  rw [ByteArray.data_extract, Array.toList_extract, List.extract_eq_take_drop,
    Nat.add_sub_cancel_left, ← split, ← length_data, List.take_left]

end WordPackage.Archive
