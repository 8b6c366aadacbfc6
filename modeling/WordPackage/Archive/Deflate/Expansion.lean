import WordPackage.Archive.Deflate.Code

/-!
# Expanding deflated bytes

A deflated stream is a sequence of blocks of bits, each kept as it is or coded
with two codes of variable length: one for bytes and lengths, one for distances.
A coded length and distance repeat what was put out that far back, and zeros
where nothing was put out yet.
-/

namespace WordPackage.Archive.Deflate

/-- The least length of a symbol from 257 on, and the number of further bits. -/
def lengthClass (symbol : Nat) : Option (Nat × Nat) :=
  ([(3, 0), (4, 0), (5, 0), (6, 0), (7, 0), (8, 0), (9, 0), (10, 0), (11, 1), (13, 1), (15, 1),
    (17, 1), (19, 2), (23, 2), (27, 2), (31, 2), (35, 3), (43, 3), (51, 3), (59, 3), (67, 4),
    (83, 4), (99, 4), (115, 4), (131, 5), (163, 5), (195, 5), (227, 5), (258, 0)])[symbol - 257]?

/-- The least distance of a symbol, and the number of further bits. -/
def distanceClass (symbol : Nat) : Option (Nat × Nat) :=
  ([(1, 0), (2, 0), (3, 0), (4, 0), (5, 1), (7, 1), (9, 2), (13, 2), (17, 3), (25, 3), (33, 4),
    (49, 4), (65, 5), (97, 5), (129, 6), (193, 6), (257, 7), (385, 7), (513, 8), (769, 8),
    (1025, 9), (1537, 9), (2049, 10), (3073, 10), (4097, 11), (6145, 11), (8193, 12),
    (12289, 12), (16385, 13), (24577, 13)])[symbol]?

/-- The byte that was put out a distance back; zero before the first one. -/
def byteBack (output : ByteArray) (distance : Nat) : UInt8 :=
  if near : 0 < distance ∧ distance ≤ output.size then
    have : output.size - distance < output.size := by omega
    output[output.size - distance]
  else 0

/-- Repeat what was put out a distance back. -/
def repeatBack (distance : Nat) : Nat → ByteArray → ByteArray
  | 0, output => output
  | count + 1, output => repeatBack distance count (output.push (byteBack output distance))

/-- Read the distance of a repetition. -/
def readDistance (distances : Code) (bits : Bits) : Except StreamFault (Nat × Bits) :=
  match distances.lookup bits with
  | .error fault => .error fault
  | .ok (symbol, rest) =>
      match distanceClass symbol with
      | none => .error .damaged
      | some (least, count) =>
          match rest.take count with
          | .error fault => .error fault
          | .ok (further, rest) => .ok (least + further, rest)

/-- Read the length of a repetition whose first symbol is given. -/
def readLength (symbol : Nat) (bits : Bits) : Except StreamFault (Nat × Bits) :=
  match lengthClass symbol with
  | none => .error .damaged
  | some (least, count) =>
      match bits.take count with
      | .error fault => .error fault
      | .ok (further, rest) => .ok (least + further, rest)

theorem remaining_of_readDistance {distances : Code} {distance : Nat} {bits rest : Bits}
    (reads : readDistance distances bits = .ok (distance, rest)) :
    rest.remaining ≤ bits.remaining := by
  unfold readDistance at reads
  split at reads
  · simp at reads
  · rename_i symbol after found
    have := Code.remaining_of_lookup found
    split at reads
    · simp at reads
    · split at reads
      · simp at reads
      · rename_i further after' taken
        have := Bits.remaining_of_take taken
        cases reads
        omega

theorem remaining_of_readLength {symbol length : Nat} {bits rest : Bits}
    (reads : readLength symbol bits = .ok (length, rest)) :
    rest.remaining ≤ bits.remaining := by
  unfold readLength at reads
  split at reads
  · simp at reads
  · split at reads
    · simp at reads
    · rename_i further after taken
      have := Bits.remaining_of_take taken
      cases reads
      omega

set_option maxRecDepth 2000 in
/-- Expand the symbols of a coded block up to its end. -/
def expandSymbols (literals distances : Code) (output : ByteArray) (bits : Bits) :
    Except StreamFault (ByteArray × Bits) :=
  match _symbol : literals.lookup bits with
  | .error fault => .error fault
  | .ok (symbol, rest) =>
      if symbol < 256 then
        expandSymbols literals distances (output.push symbol.toUInt8) rest
      else if symbol = 256 then .ok (output, rest)
      else
        match _length : readLength symbol rest with
        | .error fault => .error fault
        | .ok (length, middle) =>
            match _distance : readDistance distances middle with
            | .error fault => .error fault
            | .ok (distance, rest') =>
                expandSymbols literals distances (repeatBack distance length output) rest'
termination_by bits.remaining
decreasing_by
  · exact Code.remaining_of_lookup _symbol
  · have := Code.remaining_of_lookup _symbol
    have := remaining_of_readLength _length
    have := remaining_of_readDistance _distance
    omega

/-- The code for bytes and lengths that every stream may use. -/
def fixedLiterals : Code :=
  (Code.ofLengths <| List.replicate 144 8 ++ List.replicate 112 9 ++ List.replicate 24 7
    ++ List.replicate 8 8).getD .empty

/-- The code for distances that every stream may use. -/
def fixedDistances : Code :=
  (Code.ofLengths (List.replicate 32 5)).getD .empty

/-- The order in which a block lists the lengths of the code for lengths. -/
def lengthOrder : List Nat :=
  [16, 17, 18, 0, 8, 7, 9, 6, 10, 5, 11, 4, 12, 3, 13, 2, 14, 1, 15]

/-- Read so many numbers of three bits. -/
def takeTriples : Nat → Bits → Except StreamFault (List Nat × Bits)
  | 0, bits => .ok ([], bits)
  | count + 1, bits => do
      let (number, rest) ← bits.take 3
      let (numbers, rest) ← takeTriples count rest
      return (number :: numbers, rest)

/-- Read lengths of words up to the given number, in reverse. Three symbols
repeat the last length or zero. -/
def readLengths (code : Code) (wanted : Nat) (found : List Nat) (bits : Bits) :
    Except StreamFault (List Nat × Bits) :=
  if wanted ≤ found.length then
    if wanted = found.length then .ok (found.reverse, bits) else .error .damaged
  else
    match _symbol : code.lookup bits with
    | .error fault => .error fault
    | .ok (symbol, rest) =>
        if symbol < 16 then readLengths code wanted (symbol :: found) rest
        else
          let plan : Option (Nat × Nat × Nat) :=
            if symbol = 16 then found.head?.map fun last => (last, 3, 2)
            else if symbol = 17 then some (0, 3, 3)
            else if symbol = 18 then some (0, 11, 7)
            else none
          match plan with
          | none => .error .damaged
          | some (value, least, furtherBits) =>
              match _further : rest.take furtherBits with
              | .error fault => .error fault
              | .ok (further, rest) =>
                  readLengths code wanted (List.replicate (least + further) value ++ found) rest
termination_by bits.remaining
decreasing_by
  · exact Code.remaining_of_lookup _symbol
  · have := Code.remaining_of_lookup _symbol
    have := Bits.remaining_of_take _further
    omega

/-- The code whose words have the given lengths, if lengths can tell so many
words apart. -/
def codeOf (lengths : List Nat) : Except StreamFault Code :=
  match Code.ofLengths lengths with
  | none => .error .damaged
  | some code => .ok code

/-- Fail unless the stream keeps to its format. -/
def demand (holds : Bool) : Except StreamFault Unit :=
  if holds then .ok () else .error .damaged

/-- Expand a block that gives its own codes: the numbers of lengths for bytes and
lengths, for distances and for the lengths themselves come first. -/
def expandDynamic (output : ByteArray) (bits : Bits) :
    Except StreamFault (ByteArray × Bits) := do
  let (numbers, bits) ← bits.take 14
  let literalCount := numbers % 32 + 257
  let distanceCount := numbers / 32 % 32 + 1
  demand (literalCount ≤ 286 && distanceCount ≤ 30)
  let (triples, bits) ← takeTriples (numbers / 1024 + 4) bits
  let lengthOf (symbol : Nat) : Nat := ((lengthOrder.zip triples).lookup symbol).getD 0
  let lengthCode ← codeOf ((List.range 19).map lengthOf)
  demand lengthCode.isFull
  let (lengths, bits) ← readLengths lengthCode (literalCount + distanceCount) [] bits
  let literals ← codeOf (lengths.take literalCount)
  let distances ← codeOf (lengths.drop literalCount)
  expandSymbols literals distances output bits

/-- Expand a block that is kept as it is. It starts on the next whole byte with
its length and the complement of it. -/
def expandKept (output : ByteArray) (bits : Bits) : Except StreamFault (ByteArray × Bits) := do
  let (numbers, bits) ← bits.align.take 32
  let length := numbers % 65536
  demand (length + numbers / 65536 = 65535)
  if bits.remaining < 8 * length then throw .cut
  let start := bits.position / 8
  return (output ++ bits.bytes.extract start (start + length), bits.advance (8 * length))

/-- Expand a block of the given kind. -/
def expandBlock (kind : Nat) (output : ByteArray) (bits : Bits) :
    Except StreamFault (ByteArray × Bits) :=
  match kind with
  | 0 => expandKept output bits
  | 1 => expandSymbols fixedLiterals fixedDistances output bits
  | 2 => expandDynamic output bits
  | _ => .error .damaged

/-- Expand blocks up to the last one. The first argument bounds their number. -/
def expandBlocks : Nat → ByteArray → Bits → Except StreamFault ByteArray
  | 0, _, _ => .error .cut
  | bound + 1, output, bits => do
      let (head, bits) ← bits.take 3
      let (output, bits) ← expandBlock (head / 2) output bits
      if head % 2 = 1 then return output else expandBlocks bound output bits

/-- Expand a deflated stream. Each block takes three bits at least, so there are
fewer blocks than bits. -/
def expand (bytes : ByteArray) : Except StreamFault ByteArray :=
  let bits : Bits := { bytes }
  expandBlocks bits.remaining .empty bits

end WordPackage.Archive.Deflate
