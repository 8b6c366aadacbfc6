/-!
# UTF-8

Bytes as text. Decoding succeeds exactly on valid UTF-8; otherwise the fault
names the first byte that belongs to no character and how many bytes of a
character stand there before the one that rules it out.
-/

namespace WordPackage.Text

/-- Where a byte sequence stops being UTF-8. -/
structure EncodingFault where
  /-- Index of the first byte that belongs to no character. -/
  offset : Nat
  /-- Number of bytes that no continuation could mend; none when the input ends
  inside a character. -/
  length : Option Nat
  deriving DecidableEq, Repr

/-- The wording of an encoding fault. -/
def EncodingFault.message (fault : EncodingFault) : String :=
  match fault.length with
  | some length => "invalid utf-8 sequence of " ++ toString length ++ " bytes from index "
      ++ toString fault.offset
  | none => "incomplete utf-8 byte sequence from index " ++ toString fault.offset

/-- What a character still needs: the range of its next byte and the number of
free continuation bytes after that one. -/
structure Owed where
  low : UInt8
  high : UInt8
  further : Nat

/-- What a lead byte owes: `some none` after a whole character, none for a byte
that leads no character. -/
def owedAfter (lead : UInt8) : Option (Option Owed) :=
  if lead ≤ 0x7F then some none
  else if 0xC2 ≤ lead ∧ lead ≤ 0xDF then some (some ⟨0x80, 0xBF, 0⟩)
  else if lead = 0xE0 then some (some ⟨0xA0, 0xBF, 1⟩)
  else if lead = 0xED then some (some ⟨0x80, 0x9F, 1⟩)
  else if 0xE1 ≤ lead ∧ lead ≤ 0xEF then some (some ⟨0x80, 0xBF, 1⟩)
  else if lead = 0xF0 then some (some ⟨0x90, 0xBF, 2⟩)
  else if 0xF1 ≤ lead ∧ lead ≤ 0xF3 then some (some ⟨0x80, 0xBF, 2⟩)
  else if lead = 0xF4 then some (some ⟨0x80, 0x8F, 2⟩)
  else none

/-- The fault of a byte sequence, read from a character that starts at `start`,
of which `taken` bytes were accepted and `owed` is still to come. -/
def encodingFaultFrom (start taken : Nat) : Option Owed → List UInt8 → EncodingFault
  | _, [] => ⟨start, none⟩
  | none, byte :: rest =>
      match owedAfter byte with
      | none => ⟨start, some 1⟩
      | some none => encodingFaultFrom (start + 1) 0 none rest
      | some (some owed) => encodingFaultFrom start 1 (some owed) rest
  | some owed, byte :: rest =>
      if owed.low ≤ byte ∧ byte ≤ owed.high then
        match owed.further with
        | 0 => encodingFaultFrom (start + taken + 1) 0 none rest
        | further + 1 => encodingFaultFrom start (taken + 1) (some ⟨0x80, 0xBF, further⟩) rest
      else
        ⟨start, some taken⟩

/-- The text that bytes encode, or where they stop being UTF-8. -/
def decode (bytes : ByteArray) : Except EncodingFault String :=
  match String.fromUTF8? bytes with
  | some text => .ok text
  | none => .error (encodingFaultFrom 0 0 none bytes.toList)

/-- The text that bytes encode, with a replacement character for each fault. The
first argument bounds the number of faults. -/
def decodeReplacing : Nat → ByteArray → String
  | 0, _ => ""
  | bound + 1, bytes =>
      match decode bytes with
      | .ok text => text
      | .error fault =>
          let before := (String.fromUTF8? (bytes.extract 0 fault.offset)).getD ""
          match fault.length with
          | none => before ++ "\uFFFD"
          | some length =>
              before ++ "\uFFFD"
                ++ decodeReplacing bound (bytes.extract (fault.offset + length) bytes.size)

/-- The text that bytes encode, with a replacement character for each fault. -/
def decodeLossy (bytes : ByteArray) : String :=
  decodeReplacing (bytes.size + 1) bytes

theorem fromUTF8?_toUTF8 (text : String) : String.fromUTF8? text.toUTF8 = some text := by
  simp only [String.fromUTF8?, String.toUTF8_eq_toByteArray, dif_pos text.isValidUTF8]
  rfl

@[simp] theorem decode_toUTF8 (text : String) : decode text.toUTF8 = .ok text := by
  rw [decode, fromUTF8?_toUTF8]

/-- Bytes are decoded as a text exactly when they encode it. -/
theorem decode_eq_ok_iff {bytes : ByteArray} {text : String} :
    decode bytes = .ok text ↔ bytes = text.toUTF8 := by
  constructor
  · intro decodes
    rw [decode, String.fromUTF8?] at decodes
    split at decodes
    · rename_i found valid
      split at valid
      · cases valid
        cases decodes
        rfl
      · cases valid
    · cases decodes
  · rintro rfl
    exact decode_toUTF8 text

end WordPackage.Text
