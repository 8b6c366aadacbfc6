import WordPackage.Proofs.Json.Scanned
import WordPackage.Proofs.Json.Skipped

/-!
# What is skipped as a value

Nothing but a value is skipped as one. The containers that are open while a value is skipped say
what still has to come after it: further items and a closing bracket for each of them, innermost
first.
-/

namespace WordPackage.Json

theorem lead_string {body chars rest : List Char}
    (next : skipSpace chars = '"' :: (body ++ '"' :: rest)) :
    Lead [stringToken body] chars rest := by
  apply Lead.of_skipSpace
  rw [next, stringToken, List.cons_append, List.append_assoc, List.singleton_append]

/-- What is skipped before an item is its label. -/
theorem isLabel_of_skipLabel {frame : Frame} {chars rest : List Char}
    (skips : skipLabel frame chars = .ok rest) :
    ∃ label, IsLabel frame label ∧ Lead label chars rest := by
  cases frame with
  | list =>
      cases skips
      exact ⟨[], .list, .refl chars⟩
  | object =>
      rw [skipLabel, skipName] at skips
      split at skips
      · cases skips
      · rename_i char tail next
        split at skips
        · rename_i mark
          split at skips
          · cases skips
          · rename_i behind name
            obtain ⟨body, rfl, isBody⟩ := isBody_of_skipString name
            exact ⟨[stringToken body, [':']], .object isBody,
              (lead_string (mark ▸ next)).trans (lead_of_readMark skips)⟩
        · cases skips

/-- Tokens that are skipped as the start of a value: a whole value, or the bracket of a container
and the label of its first item. -/
inductive Starts : Option Frame → List Token → Prop where
  | whole {value : List Token} (isValue : IsValue value) : Starts none value
  | container {frame : Frame} {label : List Token} (isLabel : IsLabel frame label) :
      Starts (some frame) ([frame.opening] :: label)

theorem Starts.scalar {token : Token} {chars rest : List Char} (isScalar : IsScalar token)
    (next : skipSpace chars = token ++ rest) :
    ∃ tokens, Starts none tokens ∧ Lead tokens chars rest :=
  ⟨[token], .whole (.scalar isScalar), .of_skipSpace next⟩

/-- What follows the bracket of a container belongs to its start. -/
theorem Starts.opening (frame : Frame) {started : Option Frame} {chars tail rest : List Char}
    (next : skipSpace chars = frame.opening :: tail)
    (skips : (match skipSpace tail with
      | [] => Except.error Fault.truncated
      | char :: rest' =>
          if char = frame.closing then .ok (none, rest')
          else (skipLabel frame (char :: rest')).map fun rest => (some frame, rest))
        = .ok (started, rest)) :
    ∃ tokens, Starts started tokens ∧ Lead tokens chars rest := by
  have bracket : Lead [[frame.opening]] chars tail := .mark next
  split at skips
  · cases skips
  · rename_i char rest' inside
    split at skips
    · rename_i closes
      cases skips
      have closing : Lead [[frame.closing]] tail rest := .mark (closes ▸ inside)
      exact ⟨_, .whole (@IsValue.container frame [] (List.forall_mem_nil _)
        (List.forall_mem_nil _)), bracket.trans closing⟩
    · obtain ⟨behind, skipped, same⟩ := eq_ok_of_map skips
      cases same
      obtain ⟨label, isLabel, lead⟩ := isLabel_of_skipLabel skipped
      have first : Lead label tail rest := (Lead.skipSpace tail).trans (inside ▸ lead)
      exact ⟨_, .container isLabel, bracket.trans first⟩

/-- What is skipped as the start of a value is one. -/
theorem starts_of_skipStart {chars rest : List Char} {started : Option Frame}
    (skips : skipStart chars = .ok (started, rest)) :
    ∃ tokens, Starts started tokens ∧ Lead tokens chars rest := by
  unfold skipStart at skips
  dsimp only at skips
  split at skips
  · cases skips
  rename_i char tail next
  have word : ∀ (name : String) {letters : String}, name ∈ ["null", "true", "false"] →
      name.toList = char :: letters.toList →
      (readWord letters.toList tail).map (fun rest => (none, rest)) = .ok (started, rest) →
      ∃ tokens, Starts started tokens ∧ Lead tokens chars rest := by
    intro name letters listed spelled reads
    obtain ⟨behind, read, same⟩ := eq_ok_of_map reads
    cases same
    refine Starts.scalar (.word listed) ?_
    rw [next, spelled, eq_append_of_readWord read, List.cons_append]
  split at skips
  · rename_i first
    exact word "null" (by decide) (by rw [first]; rfl) skips
  split at skips
  · rename_i first
    exact word "true" (by decide) (by rw [first]; rfl) skips
  split at skips
  · rename_i first
    exact word "false" (by decide) (by rw [first]; rfl) skips
  split at skips
  · rename_i isSign
    obtain ⟨behind, skipped, same⟩ := eq_ok_of_map skips
    cases same
    obtain ⟨token, isNumber, split⟩ := isNumber_of_skipNumber (.inr rfl) skipped
    exact Starts.scalar (.number isNumber) (by rw [next, isSign, ← split]; rfl)
  split at skips
  · obtain ⟨behind, skipped, same⟩ := eq_ok_of_map skips
    cases same
    obtain ⟨token, isNumber, split⟩ := isNumber_of_skipNumber (.inl rfl) skipped
    exact Starts.scalar (.number isNumber) (by rw [next, ← split]; rfl)
  split at skips
  · rename_i mark
    obtain ⟨behind, skipped, same⟩ := eq_ok_of_map skips
    cases same
    obtain ⟨body, rfl, isBody⟩ := isBody_of_skipString skipped
    exact ⟨_, .whole (.scalar (.text isBody)), lead_string (mark ▸ next)⟩
  split at skips
  · rename_i bracket
    exact Starts.opening .list (by rw [next, bracket]; rfl) skips
  split at skips
  · rename_i bracket
    exact Starts.opening .object (by rw [next, bracket]; rfl) skips
  · cases skips

/-- Tokens that close open containers, innermost first: further items of each and its bracket. -/
inductive Closes : List Frame → List Token → Prop where
  | nil : Closes [] []
  | cons {frame : Frame} {outer : List Frame} {items : List (List Token × List Token)}
      {tokens : List Token} (labels : ∀ item ∈ items, IsLabel frame item.1)
      (values : ∀ item ∈ items, IsValue item.2) (later : Closes outer tokens) :
      Closes (frame :: outer) ((labelled items).flatMap ([','] :: ·) ++ [frame.closing] :: tokens)

/-- Tokens that are skipped after a value: brackets of the containers that end with it, and then
nothing if all do, else a comma and the label of the next item of the first that does not. -/
inductive Ends : List Frame → List Frame → List Token → Prop where
  | all : Ends [] [] []
  | next {frame : Frame} {outer : List Frame} {label : List Token}
      (isLabel : IsLabel frame label) : Ends (frame :: outer) (frame :: outer) ([','] :: label)
  | close {frame : Frame} {outer unclosed : List Frame} {tokens : List Token}
      (later : Ends outer unclosed tokens) :
      Ends (frame :: outer) unclosed ([frame.closing] :: tokens)

/-- What is skipped after a value ends containers. -/
theorem ends_of_skipEnds {frames unclosed : List Frame} {chars rest : List Char}
    (skips : skipEnds frames chars = .ok (unclosed, rest)) :
    ∃ tokens, Ends frames unclosed tokens ∧ Lead tokens chars rest := by
  induction frames generalizing chars with
  | nil =>
      cases skips
      exact ⟨[], .all, .refl _⟩
  | cons frame outer ih =>
      rw [skipEnds] at skips
      split at skips
      · cases skips
      · rename_i char tail next
        split at skips
        · rename_i comma
          obtain ⟨behind, skipped, same⟩ := eq_ok_of_map skips
          cases same
          obtain ⟨label, isLabel, lead⟩ := isLabel_of_skipLabel skipped
          exact ⟨_, .next isLabel, (Lead.mark (comma ▸ next)).trans lead⟩
        · split at skips
          · rename_i closing
            obtain ⟨tokens, ends, lead⟩ := ih skips
            exact ⟨_, .close ends, (Lead.mark (closing ▸ next)).trans lead⟩
          · cases skips

theorem Ends.closes {frames : List Frame} {tokens : List Token} (ends : Ends frames [] tokens) :
    Closes frames tokens := by
  generalize none : ([] : List Frame) = unclosed at ends
  induction ends with
  | all => exact .nil
  | next => cases none
  | close _ ih => exact .cons (List.forall_mem_nil _) (List.forall_mem_nil _) (ih none)

/-- Containers one of which has another item are closed once that one is. -/
theorem Ends.closes_item {frames outer : List Frame} {frame : Frame}
    {tokens value later : List Token} (ends : Ends frames (frame :: outer) tokens)
    (isValue : IsValue value) (closes : Closes (frame :: outer) later) :
    Closes frames (tokens ++ (value ++ later)) := by
  generalize several : frame :: outer = unclosed at ends
  induction ends with
  | all => cases several
  | @next frame outer label isLabel =>
      cases several
      cases closes with
      | @cons _ _ items rest labels values last =>
          have item := @Closes.cons frame outer ((label, value) :: items) rest
            (List.forall_mem_cons.2 ⟨isLabel, labels⟩) (List.forall_mem_cons.2 ⟨isValue, values⟩)
            last
          simpa [labelled] using item
  | close _ ih => exact .cons (List.forall_mem_nil _) (List.forall_mem_nil _) (ih several)

/-- What is skipped inside open containers is a value and what closes them. -/
theorem exists_of_skipWithin {frames : List Frame} {chars rest : List Char}
    (skips : skipWithin frames chars = .ok rest) :
    ∃ value tokens, IsValue value ∧ Closes frames tokens ∧ Lead (value ++ tokens) chars rest := by
  fun_induction skipWithin frames chars with
  | case1 => cases skips
  | case2 frames chars frame behind start ih =>
      -- The value inside is the first item of the container that was entered.
      obtain ⟨first, tokens, isValue, closes, lead⟩ := ih skips
      obtain ⟨opened, starts, lead'⟩ := starts_of_skipStart start
      cases starts with
      | @container _ label isLabel =>
          cases closes with
          | @cons _ _ items later labels values last =>
              refine ⟨_, later, @IsValue.container frame ((label, first) :: items)
                (List.forall_mem_cons.2 ⟨isLabel, labels⟩)
                (List.forall_mem_cons.2 ⟨isValue, values⟩), last, ?_⟩
              have whole := lead'.trans lead
              rw [enclosedTokens, labelled, List.map_cons, commaTokens_cons]
              simpa [labelled] using whole
  | case3 => cases skips
  | case4 frames chars behind start behind' ends =>
      cases skips
      obtain ⟨value, starts, lead⟩ := starts_of_skipStart start
      obtain ⟨tokens, closed, lead'⟩ := ends_of_skipEnds ends
      cases starts with
      | whole isValue => exact ⟨value, tokens, isValue, closed.closes, lead.trans lead'⟩
  | case5 frames chars behind start frame outer behind' ends ih =>
      obtain ⟨value, starts, lead⟩ := starts_of_skipStart start
      obtain ⟨tokens, closed, lead'⟩ := ends_of_skipEnds ends
      obtain ⟨next, later, isNext, closes, lead''⟩ := ih skips
      cases starts with
      | whole isValue =>
          exact ⟨value, tokens ++ (next ++ later), isValue, closed.closes_item isNext closes,
            lead.trans (lead'.trans lead'')⟩

theorem isValue_of_skipValue {chars rest : List Char} (skips : skipValue chars = .ok rest) :
    ∃ value, IsValue value ∧ Lead value chars rest := by
  obtain ⟨value, tokens, isValue, closes, lead⟩ := exists_of_skipWithin skips
  cases closes with
  | nil =>
      rw [List.append_nil] at lead
      exact ⟨value, isValue, lead⟩

end WordPackage.Json
