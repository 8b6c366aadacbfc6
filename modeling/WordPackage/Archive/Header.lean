import WordPackage.Archive.Checksum
import WordPackage.Archive.Number
import WordPackage.Text.Encoding

/-!
# Headers of the central directory

The central directory of an archive has a header for each entry: how the entry
is kept, where its local header starts and what it is called. Behind the name
stand further fields, each with its kind and its length. They may replace what
the header says, for instance the name by one in UTF-8 and sizes by numbers of
eight bytes.

A further field that contradicts its kind makes the header unusable. Fields that
merely end early do not: what was read up to there stands.
-/

namespace WordPackage.Archive

/-- A header of the central directory. -/
structure Header where
  name : String
  isEncrypted : Bool
  /-- Whether a further field tells how a key for the entry is derived. -/
  isKeyed : Bool := false
  method : Nat
  checksum : UInt32
  size : Nat
  keptSize : Nat
  offset : Nat
  deriving DecidableEq, Repr

/-- The characters that the bytes from `0x80` on stand for in texts that are not
marked as UTF-8. -/
def oemCharacters : List Char :=
  ("ÇüéâäàåçêëèïîìÄÅÉæÆôöòûùÿÖÜ¢£¥₧ƒáíóúñÑªº¿⌐¬½¼¡«»"
    ++ "░▒▓│┤╡╢╖╕╣║╗╝╜╛┐└┴┬├─┼╞╟╚╔╩╦╠═╬╧╨╤╥╙╘╒╓╫╪┘┌█▄▌▐▀"
    ++ "αßΓπΣσµτΦΘΩδ∞φε∩≡±≥≤⌠⌡÷≈°∙·√ⁿ²■\u00A0").toList

/-- The text of a header that bytes stand for. -/
def headerText (isUtf8 : Bool) (bytes : ByteArray) : String :=
  if isUtf8 then Text.decodeLossy bytes
  else .ofList (bytes.toList.map fun byte =>
    if byte < 0x80 then .ofNat byte.toNat else oemCharacters.getD (byte.toNat - 0x80) '?')

/-- A header while its further fields are read. -/
structure FieldState where
  header : Header
  name : ByteArray
  comment : String
  fields : ByteArray
  position : Nat := 0

/-- Why further fields are not read to their end. -/
inductive FieldFault where
  | ended
  | contradiction
  deriving DecidableEq, Repr

/-- A step in reading further fields. What it found out stays when it fails. -/
abbrev FieldReader (α : Type) := ExceptT FieldFault (StateM FieldState) α

namespace FieldReader

/-- Pass bytes, and give what stands there. -/
def takeBytes (count : Nat) : FieldReader ByteArray := do
  let state ← get
  if hasBytes state.fields state.position count then
    set { state with position := state.position + count }
    return state.fields.extract state.position (state.position + count)
  else throw .ended

/-- Take a number of so many bytes. -/
def takeNumber (width : Nat) : FieldReader Nat := do
  return numberAt (← takeBytes width) width 0

/-- Fail unless a condition holds. -/
def demand (holds : Bool) : FieldReader Unit :=
  if holds then return else throw .contradiction

/-- Change what the header says. -/
def record (change : Header → Header) : FieldReader Unit :=
  modify fun state => { state with header := change state.header }

/-- Whether the header leaves a number to a field of eight bytes, given the length
of the field for such numbers. A field that has room for three replaces all. -/
def isWide (length number : Nat) : Bool :=
  24 ≤ length || number = 0xFFFFFFFF

/-- Take a number of eight bytes if it is wanted, and give how many were taken. -/
def takeWide (wanted : Bool) (change : Nat → Header → Header) : FieldReader Nat := do
  if wanted then
    record (change (← takeNumber 8))
    return 8
  else return 0

/-- Sizes and offset in eight bytes each, those that the header leaves open. -/
def wideNumbers (length : Nat) : FieldReader Unit := do
  let first ← takeWide (isWide length (← get).header.size)
    fun size header => { header with size }
  let second ← takeWide (isWide length (← get).header.keptSize)
    fun keptSize header => { header with keptSize }
  let third ← takeWide (isWide length (← get).header.offset)
    fun offset header => { header with offset }
  demand (first + second + third ≤ length)
  let _ ← takeBytes (length - (first + second + third))

/-- Three times of files, in one attribute of a field of fixed length. -/
def fileTimes (length : Nat) : FieldReader Unit := do
  demand (length = 32)
  let _ ← takeBytes 4
  demand ((← takeNumber 2) = 1)
  demand ((← takeNumber 2) = 24)
  let _ ← takeBytes 24

/-- Up to three times, of which a byte says which are there. A field may have a
single time whatever the byte says. -/
def unixTimes (length : Nat) : FieldReader Unit := do
  let present ← takeNumber 1
  demand (present < 8)
  demand (length = 5 || length = 1 + 4 * (present % 2 + present / 2 % 2 + present / 4))
  let _ ← takeBytes (length - 1)

/-- How the key of an encrypted entry is derived, and the method of compression. -/
def keyDerivation (length : Nat) : FieldReader Unit := do
  demand (length = 7)
  let version ← takeNumber 2
  let vendor ← takeNumber 2
  let strength ← takeNumber 1
  let method ← takeNumber 2
  demand (vendor = 0x4541 && (version = 1 || version = 2) && 1 ≤ strength && strength ≤ 3)
  record fun header => { header with method, isKeyed := true }

/-- A text in UTF-8 that replaces one with the checksum that stands before it. -/
def replacement (length : Nat) (replaced : ByteArray) : FieldReader (ByteArray × String) := do
  let _ ← takeBytes 1
  let sum ← takeNumber 4
  demand (5 ≤ length)
  let bytes ← takeBytes (length - 5)
  demand ((Archive.checksum replaced).toNat = sum)
  match String.fromUTF8? bytes with
  | none => throw .contradiction
  | some text => return (bytes, text)

/-- A name that replaces the one in the header. -/
def unicodeName (length : Nat) : FieldReader Unit := do
  let (bytes, name) ← replacement length (← get).name
  modify fun state => { state with name := bytes }
  record fun header => { header with name }

/-- A comment that replaces the one in the header. -/
def unicodeComment (length : Nat) : FieldReader Unit := do
  let (_, comment) ← replacement length (← get).comment.toUTF8
  modify fun state => { state with comment }

/-- Read one field. Fields of other kinds are passed over. -/
def field : FieldReader Unit := do
  let kind ← takeNumber 2
  let length ← takeNumber 2
  match kind with
  | 0x0001 => wideNumbers length
  | 0x000A => fileTimes length
  | 0x5455 => unixTimes length
  | 0x6375 => unicodeComment length
  | 0x7075 => unicodeName length
  | 0x9901 => keyDerivation length
  | _ => let _ ← takeBytes length

/-- Read all fields. The first argument bounds their number. -/
def fields : Nat → FieldReader Unit
  | 0 => return
  | bound + 1 => do
      let state ← get
      if state.position < state.fields.size then
        field
        fields bound

end FieldReader

/-- What a header says after its further fields are read; none if one of them is
contradictory. Every field has four bytes at least. -/
def FieldState.finish? (state : FieldState) : Option Header :=
  match (FieldReader.fields state.fields.size).run.run state with
  | (.error .contradiction, _) => none
  | (_, last) =>
      if last.header.method = 99 && !last.header.isKeyed then none else some last.header

/-- Read the header at an offset, and give the offset of the next one. -/
def readHeader? (bytes : ByteArray) (offset : Nat) : Option (Header × Nat) :=
  if !hasBytes bytes offset 46 || !hasSignature bytes 0x02014B50 offset then none
  else
    let nameStart := offset + 46
    let fieldStart := nameStart + numberAt bytes 2 (offset + 28)
    let commentStart := fieldStart + numberAt bytes 2 (offset + 30)
    let next := commentStart + numberAt bytes 2 (offset + 32)
    if bytes.size < next then none
    else
      let flags := numberAt bytes 2 (offset + 8)
      let isUtf8 := flags.testBit 11
      let name := bytes.extract nameStart fieldStart
      let state : FieldState := {
        header := {
          name := headerText isUtf8 name
          isEncrypted := flags.testBit 0
          method := numberAt bytes 2 (offset + 10)
          checksum := (numberAt bytes 4 (offset + 16)).toUInt32
          size := numberAt bytes 4 (offset + 24)
          keptSize := numberAt bytes 4 (offset + 20)
          offset := numberAt bytes 4 (offset + 42) }
        name
        comment := headerText isUtf8 (bytes.extract commentStart next)
        fields := bytes.extract fieldStart commentStart }
      state.finish?.map fun header => (header, next)

end WordPackage.Archive
