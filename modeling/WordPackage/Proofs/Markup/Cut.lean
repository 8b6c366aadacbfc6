import WordPackage.Proofs.Markup.WellFormed
import WordPackage.Proofs.Markup.WrittenDocument

/-!
# Documents that are cut off

A text that ends behind an opening bracket without its closing one is never read without a fault.
A written document has no brackets but those of its markup, so that a document that is cut off
elsewhere is read without a fault: elements that are still open are none. It has the tags that were
closed before the cut, and the count of closing brackets says which these are.
-/

namespace WordPackage.Markup

/-- Whether a text has no brackets. -/
def IsUnmarked (chars : List Char) : Prop :=
  '<' ∉ chars ∧ '>' ∉ chars

instance (chars : List Char) : Decidable (IsUnmarked chars) :=
  inferInstanceAs (Decidable (_ ∧ _))

namespace IsUnmarked

theorem cut {cut chars : List Char} (plain : IsUnmarked chars) (isCut : cut <+: chars) :
    IsUnmarked cut :=
  ⟨mt (isCut.subset ·) plain.1, mt (isCut.subset ·) plain.2⟩

theorem append {front back : List Char} (plain : IsUnmarked front) (plainBack : IsUnmarked back) :
    IsUnmarked (front ++ back) :=
  ⟨fun member => (List.mem_append.1 member).elim plain.1 plainBack.1,
    fun member => (List.mem_append.1 member).elim plain.2 plainBack.2⟩

theorem escape (chars : List Char) : IsUnmarked (escape chars) :=
  ⟨less_notMem_escape chars, greater_notMem_escape chars⟩

theorem of_isName {name : List Char} (isName : IsName name) : IsUnmarked name :=
  ⟨fun member => isName.ne_of_mem rfl member rfl, fun member => isName.ne_of_mem rfl member rfl⟩

/-- A name is written with its attributes without brackets between those of the tag. -/
theorem tagContent {name : String} {attributes : List (String × String)}
    (isName : IsName name.toList) (keys : ∀ pair ∈ attributes, IsName pair.1.toList) :
    IsUnmarked (tagContent name attributes) := by
  rw [tagContent_eq]
  refine (of_isName isName).append ?_
  induction attributes with
  | nil => exact ⟨List.not_mem_nil, List.not_mem_nil⟩
  | cons pair rest ih =>
      obtain ⟨isKey, later⟩ := List.forall_mem_cons.1 keys
      have blank : IsUnmarked [' '] := by decide
      have equals : IsUnmarked "=\"".toList := by decide
      have quote : IsUnmarked ['"'] := by decide
      have first := (((blank.append (of_isName isKey)).append equals).append
        (escape pair.2.toList)).append quote
      rw [List.flatMap_cons]
      exact first.append (ih later)

theorem lineBreak (layout : Layout) (breaks : Bool) (depth : Nat) :
    IsUnmarked (layout.lineBreak breaks depth) := by
  constructor
  · intro member
    rcases Layout.eq_of_mem_lineBreak member with same | same <;> cases same
  · intro member
    rcases Layout.eq_of_mem_lineBreak member with same | same <;> cases same

end IsUnmarked

/-- Whether the last bracket of a text is an opening one. -/
def EndsInMarkup (chars : List Char) : Prop :=
  chars.reverse.find? (fun char => char == '<' || char == '>') = some '<'

instance (chars : List Char) : Decidable (EndsInMarkup chars) :=
  inferInstanceAs (Decidable (_ = _))

theorem not_endsInMarkup {chars : List Char} (free : '<' ∉ chars) : ¬EndsInMarkup chars := by
  intro inside
  exact free (List.mem_reverse.1 (List.mem_of_find?_eq_some inside))

theorem endsInMarkup_append_close (front back : List Char) :
    EndsInMarkup (front ++ '>' :: back) ↔ EndsInMarkup back := by
  rw [EndsInMarkup, EndsInMarkup, List.reverse_append, List.reverse_cons, List.append_assoc,
    List.find?_append, List.singleton_append, List.find?_cons_of_pos (by decide)]
  cases back.reverse.find? fun char => char == '<' || char == '>' with
  | none => simp
  | some bracket => simp

/-- A text with an opening bracket and none behind it ends inside markup. -/
theorem endsInMarkup_append_open (front : List Char) {back : List Char} (free : IsUnmarked back) :
    EndsInMarkup (front ++ '<' :: back) := by
  have none : back.reverse.find? (fun char => char == '<' || char == '>') = none := by
    refine List.find?_eq_none.2 fun char member bracket => ?_
    rcases Bool.or_eq_true_iff.1 bracket with less | greater
    · exact free.1 (eq_of_beq less ▸ List.mem_reverse.1 member)
    · exact free.2 (eq_of_beq greater ▸ List.mem_reverse.1 member)
  rw [EndsInMarkup, List.reverse_append, List.reverse_cons, List.append_assoc, List.find?_append,
    none, Option.none_or, List.singleton_append]
  exact List.find?_cons_of_pos rfl

namespace Event

/-- A tag ends with a closing bracket. -/
theorem exists_close_of_splitTag {quoted : Option Char} {passed chars content rest : List Char}
    (splits : splitTag quoted passed chars = some (content, rest)) :
    ∃ front, chars = front ++ '>' :: rest := by
  fun_induction splitTag quoted passed chars with
  | case1 quoted passed => cases splits
  | case2 passed rest' =>
      cases splits
      exact ⟨[], rfl⟩
  | case3 passed char rest' notEnd ih =>
      obtain ⟨front, rfl⟩ := ih splits
      exact ⟨char :: front, rfl⟩
  | case4 mark passed char rest' ih =>
      obtain ⟨front, rfl⟩ := ih splits
      exact ⟨char :: front, rfl⟩

/-- A document type ends with a closing bracket. -/
theorem exists_close_of_splitDoctype {opened : Nat} {passed chars content rest : List Char}
    (splits : splitDoctype opened passed chars = some (content, rest)) :
    ∃ front, chars = front ++ '>' :: rest := by
  fun_induction splitDoctype opened passed chars with
  | case1 opened passed => cases splits
  | case2 passed rest' =>
      cases splits
      exact ⟨[], rfl⟩
  | case3 passed rest' outer ih =>
      obtain ⟨front, rfl⟩ := ih splits
      exact ⟨'>' :: front, rfl⟩
  | case4 opened passed char rest' notEnd ih =>
      obtain ⟨front, rfl⟩ := ih splits
      exact ⟨char :: front, rfl⟩

/-- Other markup ends with a closing bracket. -/
theorem exists_close_of_splitClose {ends : List Char → Bool}
    {passed chars content rest : List Char}
    (splits : splitClose ends passed chars = some (content, rest)) :
    ∃ front, chars = front ++ '>' :: rest := by
  fun_induction splitClose ends passed chars with
  | case1 passed => cases splits
  | case2 passed char rest' closes =>
      obtain rfl := of_decide_eq_true (Bool.and_eq_true_iff.1 closes).1
      cases splits
      exact ⟨[], rfl⟩
  | case3 passed char rest' notEnd ih =>
      obtain ⟨front, rfl⟩ := ih splits
      exact ⟨char :: front, rfl⟩

/-- Markup ends with a closing bracket, whatever its kind. -/
theorem exists_close_of_ofMarkup {chars rest : List Char} {event : Event}
    (reads : ofMarkup chars = .ok (event, rest)) : ∃ front, chars = front ++ '>' :: rest := by
  unfold ofMarkup at reads
  split at reads
  · unfold ofExclamation at reads
    repeat' split at reads
    all_goals first
      | (cases reads; apply exists_close_of_splitClose; assumption)
      | (cases reads; apply exists_close_of_splitDoctype; assumption)
      | cases reads
  · unfold ofQuestion at reads
    split at reads
    · cases reads
    · simp only at reads
      repeat' split at reads
      all_goals first
        | (cases reads; apply exists_close_of_splitClose; assumption)
        | cases reads
  · unfold ofTag at reads
    repeat' split at reads
    all_goals first
      | (cases reads; apply exists_close_of_splitTag; assumption)
      | cases reads

end Event

namespace Reading

@[simp] theorem fault_consText (chars : List Char) (reading : Reading) :
    (consText chars reading).fault = reading.fault := by
  rw [consText_eq]
  rfl

theorem read_unmarked (opened : List (List Char)) {chars : List Char} (plain : IsUnmarked chars) :
    (read opened chars).fault = none ∧ (read opened chars).tags = [] := by
  rw [read_text opened plain.1]
  exact ⟨rfl, Element.filterMap_tag?_textEvents chars⟩

@[simp] theorem tags_prepend (events : List Event) (reading : Reading) :
    (reading.prepend events).tags = events.filterMap Event.tag? ++ reading.tags :=
  List.filterMap_append

/-- A text that ends inside markup is not read to its end. -/
theorem exists_fault_of_endsInMarkup (opened : List (List Char)) {chars : List Char}
    (inside : EndsInMarkup chars) : ∃ fault, (read opened chars).fault = some fault := by
  fun_induction read opened chars with
  | case1 opened chars ih =>
      have whole := List.takeWhile_append_dropWhile (p := (· != '<')) (l := chars)
      rw [fault_consText]
      split
      · rename_i noTag
        refine absurd inside (not_endsInMarkup fun bracket => ?_)
        exact absurd (List.dropWhile_eq_nil_iff.1 noTag '<' bracket) (by decide)
      · rename_i first rest bracket
        split
        · exact ⟨_, rfl⟩
        · rename_i event rest' reads
          split
          · exact ⟨_, rfl⟩
          · -- The end of the text lies behind the tag.
            obtain ⟨front, rfl⟩ := Event.exists_close_of_ofMarkup reads
            refine ih first _ bracket event rest' reads _ ?_
            rw [bracket, ← List.cons_append, ← List.append_assoc] at whole
            rw [← whole, endsInMarkup_append_close] at inside
            exact inside

end Reading

/-- What is cut off behind a character ends before it or behind it. -/
theorem prefix_append_cons {cut front back : List Char} {char : Char}
    (isCut : cut <+: front ++ char :: back) :
    cut <+: front ∨ ∃ rest, cut = front ++ char :: rest ∧ rest <+: back := by
  rcases List.prefix_or_prefix_of_prefix isCut (List.prefix_append front (char :: back)) with
    before | ⟨tail, rfl⟩
  · exact .inl before
  · have behind := (List.prefix_append_right_inj front).1 isCut
    cases tail with
    | nil =>
        rw [List.append_nil]
        exact .inl (List.prefix_refl front)
    | cons first rest =>
        obtain ⟨rfl, isRest⟩ := List.cons_prefix_cons.1 behind
        exact .inr ⟨rest, rfl, isRest⟩

/-- A text whose brackets are those of its markup, which is read as the given events while elements
of the given names are open. -/
inductive IsMarkedUp : List (List Char) → List Char → List Event → Prop where
  | text {opened : List (List Char)} {chars : List Char} (plain : IsUnmarked chars) :
      IsMarkedUp opened chars []
  | markup {opened opened' : List (List Char)} {front body rest : List Char} {event : Event}
      {later : List Event} (plain : IsUnmarked front) (inner : IsUnmarked body)
      (reads : ∀ rest, Event.ofMarkup (body ++ ['>'] ++ rest) = .ok (event, rest))
      (nests : event.nest opened = .ok opened') (continues : IsMarkedUp opened' rest later) :
      IsMarkedUp opened (front ++ '<' :: body ++ '>' :: rest) (event :: later)

namespace IsMarkedUp

/-- A text that is cut off outside of markup is read without a fault, and its tags are those of
the events before the cut: each event closes one bracket. -/
theorem read_cut {opened : List (List Char)} {chars : List Char} {events : List Event}
    (marked : IsMarkedUp opened chars events) {cut : List Char} (isCut : cut <+: chars)
    (outside : ¬EndsInMarkup cut) :
    (Reading.read opened cut).fault = none ∧
      (Reading.read opened cut).tags = (events.take (cut.count '>')).filterMap Event.tag? := by
  induction marked generalizing cut with
  | @text opened chars plain =>
      rw [List.take_nil]
      exact Reading.read_unmarked opened (plain.cut isCut)
  | @markup opened opened' front body rest event later plain inner reads nests continues ih =>
      rcases prefix_append_cons isCut with before | ⟨rest', rfl, isRest⟩
      · -- The cut is before the end of the next markup: within the text in front or inside the
        -- markup.
        rcases prefix_append_cons before with inFront | ⟨inside, rfl, isInside⟩
        · have plainCut := plain.cut inFront
          rw [List.count_eq_zero_of_not_mem plainCut.2, List.take_zero]
          exact Reading.read_unmarked opened plainCut
        · exact absurd (endsInMarkup_append_open front (inner.cut isInside)) outside
      · -- The cut is behind the next markup, which counts for one closing bracket.
        obtain ⟨clear, tags⟩ := ih isRest (mt (endsInMarkup_append_close _ _).2 outside)
        have closed : (front ++ '<' :: body ++ '>' :: rest').count '>' = rest'.count '>' + 1 := by
          rw [List.count_append, List.count_append, List.count_cons_self,
            List.count_cons_of_ne (by decide), List.count_eq_zero_of_not_mem plain.2,
            List.count_eq_zero_of_not_mem inner.2, Nat.add_zero, Nat.zero_add]
        have step : Reading.read opened (front ++ '<' :: body ++ '>' :: rest') =
            (Reading.read opened' rest').prepend (textEvents front ++ [event]) := by
          rw [← Reading.read_event plain.1 (reads rest') nests]
          simp
        rw [closed, step, List.take_succ_cons, Reading.tags_prepend, tags, List.filterMap_append,
          Element.filterMap_tag?_textEvents, List.nil_append, ← List.filterMap_append]
        exact ⟨clear, rfl⟩

end IsMarkedUp

namespace Element

mutual

/-- The events of the markup that an element is written as, without its texts. -/
def markup : Element → List Event
  | ⟨name, attributes, text, children⟩ =>
      if text.isNone && children.isEmpty then [.empty (.written name attributes)]
      else .start (.written name attributes) :: markupAll children ++ [.finish name.toList]

/-- The events of the markup that elements side by side are written as. -/
def markupAll : List Element → List Event
  | [] => []
  | element :: rest => element.markup ++ markupAll rest

end

end Element

/-- What pieces are marked up as while elements are open, whatever text stands before them. -/
def SpellsMarkup (layout : Layout) (opened : List (List Char)) (pieces : List Piece)
    (events : List Event) : Prop :=
  ∀ front breaks, IsUnmarked front → IsMarkedUp opened (front ++ layout.place breaks pieces) events

namespace SpellsMarkup

variable {layout : Layout}

theorem nil (opened : List (List Char)) : SpellsMarkup layout opened [] [] := by
  intro front breaks plain
  rw [Layout.place, List.append_nil]
  exact .text plain

/-- A tag, and the text behind it if there is one, before pieces. -/
theorem tag {opened opened' : List (List Char)} {body : List Char} {event : Event}
    {later : List Piece} {events : List Event} (inner : IsUnmarked body)
    (reads : ∀ rest, Event.ofMarkup (body ++ ['>'] ++ rest) = .ok (event, rest))
    (nests : event.nest opened = .ok opened') (continues : SpellsMarkup layout opened' later events)
    (text : Option String) (depth : Nat) :
    SpellsMarkup layout opened
      (.tag depth ('<' :: body ++ ['>'])
        :: (text.toList.map fun shown => Piece.text (escape shown.toList)) ++ later)
      (event :: events) := by
  intro front breaks plain
  have before := plain.append (.lineBreak layout breaks depth)
  have behind : IsMarkedUp opened' (layout.place true
      ((text.toList.map fun shown => Piece.text (escape shown.toList)) ++ later)) events := by
    cases text with
    | none => exact continues [] true ⟨List.not_mem_nil, List.not_mem_nil⟩
    | some shown => exact continues (escape shown.toList) false (.escape shown.toList)
  have whole := IsMarkedUp.markup before inner reads nests behind
  rw [List.cons_append, Layout.place_tag]
  simpa using whole

mutual

/-- The pieces of an element are marked up as its markup. -/
theorem pieces : ∀ (element : Element), element.IsWellNamed → ∀ (depth : Nat)
    {opened : List (List Char)} {later : List Piece} {events : List Event},
    SpellsMarkup layout opened later events →
    SpellsMarkup layout opened (element.pieces depth ++ later) (element.markup ++ events)
  | ⟨name, attributes, text, children⟩, ⟨isName, keys, wellNamed⟩, depth, opened, later,
      events, continues => by
    have slash : IsUnmarked ['/'] := by decide
    have content := IsUnmarked.tagContent isName keys
    rw [Element.pieces, Element.markup]
    split
    · have reads : ∀ rest, Event.ofMarkup (tagContent name attributes ++ ['/'] ++ ['>'] ++ rest) =
          .ok (.empty (.written name attributes), rest) := by
        intro rest
        simpa using Event.ofMarkup_empty isName keys rest
      have whole := tag (content.append slash) reads rfl continues none depth
      simpa using whole
    · -- Behind the start tag the element is open; its end tag closes it again.
      have starts : (Event.start (.written name attributes)).nest opened
          = .ok (name.toList :: opened) := by
        rw [Event.nest, Tag.name_written isName]
      have closes : (Event.finish name.toList).nest (name.toList :: opened) = .ok opened := by
        rw [Event.nest, if_pos rfl]
      have finish := tag (slash.append (.of_isName isName)) (Event.ofMarkup_finish isName) closes
        continues none depth
      have inside := piecesAll children wellNamed (depth + 1) finish
      have whole := tag content (Event.ofMarkup_start isName keys) starts inside text depth
      simpa using whole

/-- The pieces of elements side by side are marked up as their markup. -/
theorem piecesAll : ∀ (elements : List Element), Element.AreWellNamed elements → ∀ (depth : Nat)
    {opened : List (List Char)} {later : List Piece} {events : List Event},
    SpellsMarkup layout opened later events →
    SpellsMarkup layout opened (Element.piecesAll depth elements ++ later)
      (Element.markupAll elements ++ events)
  | [], _, _, _, _, _, continues => continues
  | element :: rest, ⟨wellNamed, restWellNamed⟩, depth, opened, later, events, continues => by
    rw [Element.piecesAll, Element.markupAll, List.append_assoc, List.append_assoc]
    exact pieces element wellNamed depth (piecesAll rest restWellNamed depth continues)

end

end SpellsMarkup

/-- The document of a well-named element that is cut off inside markup is not read to its end.
Cut off elsewhere it is read without a fault, and its tags are those of the markup before the
cut. -/
theorem Reading.ofText_cut (layout : Layout) {element : Element}
    (wellNamed : element.IsWellNamed) {cut : String}
    (isCut : cut.toList <+: (element.document layout).toList) :
    (EndsInMarkup cut.toList → ∃ fault, (ofText cut).fault = some fault) ∧
      (¬EndsInMarkup cut.toList → (ofText cut).fault = none ∧ (ofText cut).tags =
        (element.markup.take (cut.toList.count '>' - 1)).filterMap Event.tag?) := by
  have body : SpellsMarkup layout [] (element.pieces 0 ++ []) (element.markup ++ []) :=
    SpellsMarkup.pieces element wellNamed 0 (.nil [])
  have shape : declaration.toList.tail = '?' :: (Event.declared ++ ['?']) ++ ['>'] := by decide
  have declares : ∀ rest, Event.ofMarkup ('?' :: (Event.declared ++ ['?']) ++ ['>'] ++ rest) =
      .ok (.declaration Event.declared, rest) := by
    rw [← shape]
    exact Event.ofMarkup_declaration
  have nothing : IsUnmarked [] := by decide
  have marked := IsMarkedUp.markup nothing (by decide) declares rfl
    (body ['\n'] false (by decide))
  have whole : (element.document layout).toList = [] ++ '<' :: ('?' :: (Event.declared ++ ['?'])) ++
      '>' :: (['\n'] ++ layout.place false (element.pieces 0 ++ [])) := by
    rw [toList_document, List.append_nil]
    rfl
  rw [← whole, List.append_nil] at marked
  have plain : ofText cut = read [] cut.toList := by
    rw [ofText]
    split
    · rename_i mark
      rw [mark, whole] at isCut
      exact absurd (List.cons_prefix_cons.1 isCut).1 (by decide)
    · rfl
  rw [plain]
  refine ⟨exists_fault_of_endsInMarkup [], fun outside => ?_⟩
  obtain ⟨clear, tags⟩ := marked.read_cut isCut outside
  refine ⟨clear, tags.trans ?_⟩
  cases cut.toList.count '>' with
  | zero => rfl
  | succ closed => rfl

end WordPackage.Markup
