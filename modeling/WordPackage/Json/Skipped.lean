import WordPackage.Json.Lexeme

/-!
# Skipping values

A value of any shape is passed over without being kept. The containers that are
open on the way are held in a list instead of being nested calls, so values may
be nested to any depth.
-/

namespace WordPackage.Json

/-- A container whose items or fields are being skipped. -/
inductive Frame where
  | list
  | object
  deriving DecidableEq, Repr

/-- The bracket that ends a container. -/
def Frame.closing : Frame → Char
  | .list => ']'
  | .object => '\x7d'

/-- Skip the name of a field and the colon after it. -/
def skipName (chars : List Char) : Except Fault (List Char) :=
  match skipSpace chars with
  | [] => .error .truncated
  | char :: rest =>
      if char = '"' then
        match skipString rest with
        | .error fault => .error fault
        | .ok rest => readMark ':' rest
      else .error .malformed

theorem length_skipName_lt {chars rest : List Char}
    (skips : skipName chars = .ok rest) : rest.length < chars.length := by
  unfold skipName at skips
  have blanks := length_skipSpace_le chars
  split at skips
  · simp at skips
  · rename_i char tail behind
    rw [behind, List.length_cons] at blanks
    split at skips
    · split at skips
      · simp at skips
      · rename_i rest' name
        have := length_skipString_lt name
        have := length_readMark_lt skips
        omega
    · simp at skips

/-- Skip what stands before an item of a container: nothing in an array, the
name in an object. -/
def skipLabel : Frame → List Char → Except Fault (List Char)
  | .list, chars => .ok chars
  | .object, chars => skipName chars

theorem length_skipLabel_le {frame : Frame} {chars rest : List Char}
    (skips : skipLabel frame chars = .ok rest) : rest.length ≤ chars.length := by
  cases frame with
  | list => cases skips; exact Nat.le_refl _
  | object => exact Nat.le_of_lt (length_skipName_lt skips)

/-- Skip the start of a value: a whole value if it is no container or an empty
one, else a container's bracket and what stands before its first item. -/
def skipStart (chars : List Char) : Except Fault (Option Frame × List Char) :=
  let opens (frame : Frame) (rest : List Char) : Except Fault (Option Frame × List Char) :=
    match skipSpace rest with
    | [] => .error .truncated
    | char :: rest' =>
        if char = frame.closing then .ok (none, rest')
        else (skipLabel frame (char :: rest')).map fun rest => (some frame, rest)
  match skipSpace chars with
  | [] => .error .truncated
  | char :: rest =>
      if char = 'n' then (readWord "ull".toList rest).map fun rest => (none, rest)
      else if char = 't' then (readWord "rue".toList rest).map fun rest => (none, rest)
      else if char = 'f' then (readWord "alse".toList rest).map fun rest => (none, rest)
      else if char = '-' then (skipNumber rest).map fun rest => (none, rest)
      else if char.isDigit then (skipNumber (char :: rest)).map fun rest => (none, rest)
      else if char = '"' then (skipString rest).map fun rest => (none, rest)
      else if char = '[' then opens .list rest
      else if char = '\x7b' then opens .object rest
      else .error .malformed

/-- Skip the ends of containers after a value, up to the next item or to the end
of the outermost container. Gives the containers still open. -/
def skipEnds : List Frame → List Char → Except Fault (List Frame × List Char)
  | [], chars => .ok ([], chars)
  | frame :: outer, chars =>
      match skipSpace chars with
      | [] => .error .truncated
      | char :: rest =>
          if char = ',' then (skipLabel frame rest).map fun rest => (frame :: outer, rest)
          else if char = frame.closing then skipEnds outer rest
          else .error .malformed

/-- A remainder that is given together with a frame is as short as without it. -/
theorem length_lt_of_map {skipped : Except Fault (List Char)} {given frame : Option Frame}
    {rest : List Char} {bound : Nat}
    (maps : skipped.map (fun rest => (given, rest)) = .ok (frame, rest))
    (shortens : ∀ {after : List Char}, skipped = .ok after → after.length < bound) :
    rest.length < bound := by
  obtain ⟨after, reads, same⟩ := eq_ok_of_map maps
  cases same
  exact shortens reads

theorem length_skipStart_lt {chars rest : List Char} {frame : Option Frame}
    (skips : skipStart chars = .ok (frame, rest)) : rest.length < chars.length := by
  unfold skipStart at skips
  have blanks := length_skipSpace_le chars
  -- Behind the bracket of a container stands its closing bracket or the label of its first item.
  have container : ∀ {frame' : Frame} {tail : List Char},
      (match skipSpace tail with
        | [] => Except.error Fault.truncated
        | char :: rest' =>
            if char = frame'.closing then .ok (none, rest')
            else (skipLabel frame' (char :: rest')).map fun rest => (some frame', rest)) =
        .ok (frame, rest) → rest.length < tail.length + 1 := by
    intro frame' tail opened
    have inside := length_skipSpace_le tail
    split at opened
    · cases opened
    · rename_i char rest' behind
      rw [behind, List.length_cons] at inside
      split at opened
      · cases opened
        omega
      · apply length_lt_of_map opened
        intro after label
        have shorter := length_skipLabel_le label
        rw [List.length_cons] at shorter
        omega
  dsimp only at skips
  split at skips
  · cases skips
  · rename_i char tail behind
    rw [behind, List.length_cons] at blanks
    apply Nat.lt_of_lt_of_le _ blanks
    have word {letters after : List Char} (reads : readWord letters tail = .ok after) :
        after.length < tail.length + 1 := Nat.lt_succ_of_le (length_readWord_le reads)
    split at skips
    · exact length_lt_of_map skips word
    split at skips
    · exact length_lt_of_map skips word
    split at skips
    · exact length_lt_of_map skips word
    split at skips
    · exact length_lt_of_map skips fun reads => Nat.lt_succ_of_lt (length_skipNumber_lt reads)
    split at skips
    · exact length_lt_of_map skips length_skipNumber_lt
    split at skips
    · exact length_lt_of_map skips fun reads => Nat.lt_succ_of_lt (length_skipString_lt reads)
    split at skips
    · exact container skips
    split at skips
    · exact container skips
    · cases skips

theorem length_skipEnds_le {frames unclosed : List Frame} {chars rest : List Char}
    (skips : skipEnds frames chars = .ok (unclosed, rest)) : rest.length ≤ chars.length := by
  induction frames generalizing chars with
  | nil =>
      cases skips
      exact Nat.le_refl _
  | cons frame outer ih =>
      simp only [skipEnds] at skips
      have blanks := length_skipSpace_le chars
      split at skips
      · simp at skips
      · rename_i char tail behind
        rw [behind, List.length_cons] at blanks
        split at skips
        · obtain ⟨after, label, same⟩ := eq_ok_of_map skips
          cases same
          have := length_skipLabel_le label
          omega
        · split at skips
          · have := ih skips
            omega
          · simp at skips

/-- Skip a value of any shape, however deeply nested, inside containers that are
already open, innermost first, and the ends of those containers. -/
def skipWithin (frames : List Frame) (chars : List Char) : Except Fault (List Char) :=
  match _start : skipStart chars with
  | .error fault => .error fault
  | .ok (some frame, rest) => skipWithin (frame :: frames) rest
  | .ok (none, rest) =>
      match _ends : skipEnds frames rest with
      | .error fault => .error fault
      | .ok ([], rest') => .ok rest'
      | .ok (frame :: outer, rest') => skipWithin (frame :: outer) rest'
termination_by chars.length
decreasing_by
  · exact length_skipStart_lt _start
  · have := length_skipStart_lt _start
    have := length_skipEnds_le _ends
    omega

theorem length_skipWithin_lt {frames : List Frame} {chars rest : List Char}
    (skips : skipWithin frames chars = .ok rest) : rest.length < chars.length := by
  fun_induction skipWithin frames chars with
  | case1 => simp at skips
  | case2 frames chars frame rest' start ih =>
      have := ih skips
      have := length_skipStart_lt start
      omega
  | case3 => simp at skips
  | case4 frames chars rest' start rest'' ends =>
      cases skips
      have := length_skipStart_lt start
      have := length_skipEnds_le ends
      omega
  | case5 frames chars rest' start frame outer rest'' ends ih =>
      have := ih skips
      have := length_skipStart_lt start
      have := length_skipEnds_le ends
      omega

/-- Skip a value of any shape. -/
def skipValue (chars : List Char) : Except Fault (List Char) :=
  skipWithin [] chars

end WordPackage.Json
