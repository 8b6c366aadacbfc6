import WordPackage.Archive.Deflate.Bits

/-!
# Codes of variable length

A code stands for symbols by words of up to 15 bits, none of which begins
another. Codes are canonical: shorter words come before longer ones and words of
one length in the order of their symbols, so the lengths alone tell the words.

A code wastes no word, save that it may consist of the single word zero or of
none. What starts with no word contradicts the format.
-/

namespace WordPackage.Archive.Deflate

/-- A code. -/
inductive Code where
  /-- A code that wastes no word: the number of words of each length from 1 to 15
  and the symbols in the order of their words. -/
  | full (counts : List Nat) (symbols : Array Nat)
  /-- A code whose only word is a zero, for the given symbol. -/
  | single (symbol : Nat)
  | empty

namespace Code

/-- Words of length 15 that are left over when there are so many words of each
length from 1 on; less than zero if bits cannot tell so many words apart. -/
def slack (counts : List Nat) : Int :=
  counts.foldl (fun (free : Int) (count : Nat) => 2 * free - count) 1

/-- The code whose words have the given lengths; length 0 stands for no word. -/
def ofLengths (lengths : List Nat) : Option Code :=
  let used := lengths.zipIdx.filter fun pair => pair.1 ≠ 0
  match used with
  | [] => some .empty
  | [(1, symbol)] => some (.single symbol)
  | _ =>
      let counts := (List.range 15).map fun shorter => lengths.count (shorter + 1)
      let symbols := (List.range 15).flatMap fun shorter =>
        (used.filter fun pair => pair.1 = shorter + 1).map Prod.snd
      if slack counts = 0 then some (.full counts symbols.toArray) else none

/-- Whether a code wastes no word. -/
def isFull : Code → Bool
  | .full _ _ => true
  | _ => false

/-- Read a symbol of a full code, given the counts for the lengths to come, the
bits passed as a number, the first word of the next length and the position of
its symbol. -/
def lookupFull (symbols : Array Nat) :
    List Nat → Nat → Nat → Nat → Bits → Except StreamFault (Nat × Bits)
  | [], _, _, _, _ => .error .damaged
  | count :: counts, passed, first, position, bits =>
      match bits.take 1 with
      | .error fault => .error fault
      | .ok (bit, rest) =>
          let word := 2 * passed + bit
          if word < first + count then
            match symbols[position + (word - first)]? with
            | some value => .ok (value, rest)
            | none => .error .damaged
          else lookupFull symbols counts word (2 * (first + count)) (position + count) rest

/-- Read a symbol. -/
def lookup (code : Code) (bits : Bits) : Except StreamFault (Nat × Bits) :=
  match code with
  | .full counts symbols => lookupFull symbols counts 0 0 0 bits
  | .single symbol =>
      match bits.take 1 with
      | .error fault => .error fault
      | .ok (bit, rest) => if bit = 0 then .ok (symbol, rest) else .error .damaged
  | .empty =>
      match bits.take 1 with
      | .error fault => .error fault
      | .ok _ => .error .damaged

theorem remaining_of_lookupFull {symbols : Array Nat} {counts : List Nat}
    {passed first position value : Nat} {bits rest : Bits}
    (reads : lookupFull symbols counts passed first position bits = .ok (value, rest)) :
    rest.remaining < bits.remaining := by
  induction counts generalizing passed first position bits with
  | nil => simp [lookupFull] at reads
  | cons count counts ih =>
      unfold lookupFull at reads
      split at reads
      · simp at reads
      · rename_i bit after taken
        have := Bits.remaining_of_take taken
        dsimp only at reads
        split at reads
        · split at reads
          · cases reads
            omega
          · simp at reads
        · have := ih reads
          omega

/-- Reading a symbol takes a bit at least. -/
theorem remaining_of_lookup {code : Code} {value : Nat} {bits rest : Bits}
    (reads : code.lookup bits = .ok (value, rest)) : rest.remaining < bits.remaining := by
  unfold lookup at reads
  split at reads
  · exact remaining_of_lookupFull reads
  · split at reads
    · simp at reads
    · rename_i taken
      have := Bits.remaining_of_take taken
      split at reads
      · cases reads
        omega
      · simp at reads
  · split at reads <;> simp at reads

end Code

end WordPackage.Archive.Deflate
