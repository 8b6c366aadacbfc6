import WordPackage.Json.Decoder
import WordPackage.Json.Skipped

/-!
# Reading records

A record is read from an object, whose unknown fields are skipped and whose known
fields may stand once, or from an array that gives the fields in order. Fields
that are left out keep their default values.
-/

namespace WordPackage.Json

/-- A field of a record that is read into a value of type `σ`. -/
structure Field (σ : Type) where
  name : String
  decoder : Decoder (σ → σ)

/-- What comes next in an object: its end, or a name whose characters start
behind the quotation mark. `isFirst` says that no field was read yet. -/
def nextName (isFirst : Bool) (chars : List Char) :
    Except Fault (Option (List Char) × List Char) :=
  let named (rest : List Char) : Except Fault (Option (List Char) × List Char) :=
    match rest with
    | [] => .error .truncated
    | char :: rest' => if char = '"' then .ok (some rest', []) else .error .malformed
  match skipSpace chars with
  | [] => .error .truncated
  | char :: rest =>
      if char = '\x7d' then .ok (none, rest)
      else if isFirst then named (char :: rest)
      else if char = ',' then named (skipSpace rest)
      else .error .malformed

theorem length_nextName_lt {isFirst : Bool} {chars name rest : List Char}
    (reads : nextName isFirst chars = .ok (some name, rest)) : name.length < chars.length := by
  unfold nextName at reads
  have blanks := length_skipSpace_le chars
  simp only at reads
  split at reads
  · simp at reads
  · rename_i char tail behind
    rw [behind, List.length_cons] at blanks
    have inside := length_skipSpace_le tail
    split at reads
    · simp at reads
    · split at reads
      · split at reads
        · cases reads
          omega
        · simp at reads
      · split at reads
        · split at reads
          · simp at reads
          · rename_i next tail' behind'
            rw [behind', List.length_cons] at inside
            split at reads
            · cases reads
              omega
            · simp at reads
        · simp at reads

section Record

variable {σ : Type} (fields : List (Field σ))

/-- Read the fields of an object from behind its bracket, or from behind a
field. `seen` names the known fields read so far. -/
def readFields (isFirst : Bool) (seen : List String) (state : σ) (chars : List Char) :
    Except Fault (σ × List Char) :=
  match _next : nextName isFirst chars with
  | .error fault => .error fault
  | .ok (none, rest) => .ok (state, rest)
  | .ok (some name, _) =>
      match _name : readString name with
      | .error fault => .error fault
      | .ok (letters, rest) =>
          match fields.find? fun field => field.name.toList = letters with
          | some field =>
              if field.name ∈ seen then .error .mismatched
              else
                match _colon : readMark ':' rest with
                | .error fault => .error fault
                | .ok rest' =>
                    match _value : field.decoder.run rest' with
                    | .error fault => .error fault
                    | .ok (change, rest'') =>
                        readFields false (field.name :: seen) (change state) rest''
          | none =>
              match _colon : readMark ':' rest with
              | .error fault => .error fault
              | .ok rest' =>
                  match _value : skipValue rest' with
                  | .error fault => .error fault
                  | .ok rest'' => readFields false seen state rest''
termination_by chars.length
decreasing_by
  · have := length_nextName_lt _next
    have := length_readString_lt _name
    have := length_readMark_lt _colon
    have := field.decoder.shortens _value
    omega
  · have := length_nextName_lt _next
    have := length_readString_lt _name
    have := length_readMark_lt _colon
    have := length_skipWithin_lt _value
    omega

/-- Read the fields of an array from behind its bracket, in the order of the
record. Fields at the end may be missing; a surplus item is a fault. -/
def readPositions : List (Field σ) → Bool → σ → List Char → Except Fault (σ × List Char)
  | [], _, state, chars => (readMark ']' chars).map fun rest => (state, rest)
  | field :: later, isFirst, state, chars =>
      match nextItem isFirst chars with
      | .error fault => .error fault
      | .ok (none, rest) => .ok (state, rest)
      | .ok (some item, _) =>
          match field.decoder.run item with
          | .error fault => .error fault
          | .ok (change, rest) => readPositions later false (change state) rest

/-- Read a record from an object or from an array. -/
def readRecord (initial : σ) (chars : List Char) : Except Fault (σ × List Char) :=
  match skipSpace chars with
  | [] => .error .truncated
  | char :: rest =>
      if char = '\x7b' then readFields fields true [] initial rest
      else if char = '[' then readPositions fields true initial rest
      else .error (mismatch (char :: rest))

/-- The record that a text holds. Only blanks may follow it. -/
def decodeRecord (initial : σ) (text : String) : Except Fault σ :=
  match readRecord fields initial text.toList with
  | .error fault => .error fault
  | .ok (state, rest) => if (skipSpace rest).isEmpty then .ok state else .error .malformed

end Record

end WordPackage.Json
