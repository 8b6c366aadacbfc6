import Mathlib.Data.List.TakeWhile
import WordPackage.Markup.Layout
import WordPackage.Proofs.Markup.WrittenTag

/-!
# Written documents

The document of an element is read without a fault, in either layout, as the
declaration, then a tag for each element in document order, the texts between
them, and the end tags. Names have to be readable; texts and attribute values
may hold anything.

The pieces of a document are read from the back: `ReadsAs` says what pieces are
read as when a text is pending before them, and each piece extends it at the front.
-/

namespace WordPackage.Markup

/-- The event of a text, if something of it is left without the blanks around it. -/
def textEvents (chars : List Char) : List Event :=
  match Text.dropEndWhile isSpace (chars.dropWhile isSpace) with
  | [] => []
  | shown => [.text shown]

namespace Element

mutual

/-- Whether all names in an element are readable. -/
def IsWellNamed : Element → Prop
  | ⟨name, attributes, _, children⟩ =>
      IsName name.toList ∧ (∀ pair ∈ attributes, IsName pair.1.toList) ∧ AreWellNamed children

/-- Whether all names in elements are readable. -/
def AreWellNamed : List Element → Prop
  | [] => True
  | element :: rest => IsWellNamed element ∧ AreWellNamed rest

end

mutual

/-- The events that an element is written as. -/
def events : Element → List Event
  | ⟨name, attributes, text, children⟩ =>
      if text.isNone && children.isEmpty then [.empty (.written name attributes)]
      else
        .start (.written name attributes)
          :: text.toList.flatMap (fun shown => textEvents (escape shown.toList))
          ++ eventsAll children ++ [.finish name.toList]

/-- The events that elements side by side are written as. -/
def eventsAll : List Element → List Event
  | [] => []
  | element :: rest => element.events ++ eventsAll rest

end

mutual

/-- The start tags and empty tags of an element in document order. -/
def tags : Element → List Tag
  | ⟨name, attributes, _, children⟩ => .written name attributes :: tagsAll children

/-- The start tags and empty tags of elements in document order. -/
def tagsAll : List Element → List Tag
  | [] => []
  | element :: rest => element.tags ++ tagsAll rest

end

theorem areWellNamed_iff {elements : List Element} :
    AreWellNamed elements ↔ ∀ element ∈ elements, element.IsWellNamed := by
  induction elements with
  | nil => simp [AreWellNamed]
  | cons element rest ih => simp [AreWellNamed, ih]

theorem filterMap_tag?_textEvents (chars : List Char) :
    (textEvents chars).filterMap Event.tag? = [] := by
  unfold textEvents
  split <;> rfl

mutual

/-- The tags among the events of an element are its tags. -/
theorem filterMap_tag?_events : ∀ element : Element,
    element.events.filterMap Event.tag? = element.tags
  | ⟨name, attributes, text, children⟩ => by
      have texts : (text.toList.flatMap fun shown =>
          textEvents (escape shown.toList)).filterMap Event.tag? = [] := by
        cases text with
        | none => rfl
        | some shown => simpa using filterMap_tag?_textEvents (escape shown.toList)
      rw [events, tags]
      split
      · rename_i leaf
        obtain rfl : children = [] := by
          simpa using (Bool.and_eq_true_iff.1 leaf).2
        rfl
      · simp [Event.tag?, texts, filterMap_tag?_eventsAll children]

/-- The tags among the events of elements are their tags. -/
theorem filterMap_tag?_eventsAll : ∀ elements : List Element,
    (eventsAll elements).filterMap Event.tag? = tagsAll elements
  | [] => rfl
  | element :: rest => by
      rw [eventsAll, List.filterMap_append, filterMap_tag?_events element,
        filterMap_tag?_eventsAll rest, tagsAll]

end

/-- Elements without children have one tag each. -/
theorem tagsAll_of_childless {elements : List Element}
    (childless : ∀ element ∈ elements, element.children = []) :
    tagsAll elements = elements.map fun element =>
      .written element.name element.attributes := by
  induction elements with
  | nil => rfl
  | cons element rest ih =>
      have none := childless element List.mem_cons_self
      obtain ⟨name, attributes, text, children⟩ := element
      obtain rfl : children = [] := none
      rw [tagsAll, ih fun other member => childless other (List.mem_cons_of_mem _ member)]
      rfl

end Element

namespace Event

variable {name : String} {attributes : List (String × String)}

/-- A name starts neither an exclamation, an instruction nor an end tag. -/
theorem ofMarkup_name {first : Char} (plain : isNameChar first = true) (rest : List Char) :
    ofMarkup (first :: rest) = ofTag (first :: rest) := by
  have exclamation : first ≠ '!' := by
    rintro rfl
    cases plain
  have question : first ≠ '?' := by
    rintro rfl
    cases plain
  unfold ofMarkup
  split
  · rename_i same
    exact absurd (List.cons.inj same).1 exclamation
  · rename_i same
    exact absurd (List.cons.inj same).1 question
  · rfl

theorem exists_cons_tagContent (isName : IsName name.toList)
    (attributes : List (String × String)) :
    ∃ first rest, tagContent name attributes = first :: rest ∧ isNameChar first = true := by
  obtain ⟨first, more, shape⟩ := isName.exists_cons
  refine ⟨first, more ++ attributes.flatMap writtenAttribute, ?_, isName.2 first ?_⟩
  · rw [tagContent_eq, shape, List.cons_append]
  · exact shape ▸ List.mem_cons_self

/-- The content of a written tag does not end in a slash. -/
theorem getLast?_tagContent (isName : IsName name.toList)
    (attributes : List (String × String)) :
    (tagContent name attributes).getLast? ≠ some '/' := by
  intro slash
  rw [tagContent_eq] at slash
  rcases attributes.eq_nil_or_concat with rfl | ⟨front, pair, rfl⟩
  · rw [List.flatMap_nil, List.append_nil] at slash
    exact isName.ne_of_mem rfl (List.mem_of_getLast? slash) rfl
  · rw [List.concat_eq_append, List.flatMap_append, List.flatMap_singleton, writtenAttribute,
      ← List.append_assoc, ← List.append_assoc, List.getLast?_concat] at slash
    cases slash

/-- A written start tag is read as such. -/
theorem ofMarkup_start (isName : IsName name.toList)
    (keys : ∀ pair ∈ attributes, IsName pair.1.toList) (rest : List Char) :
    ofMarkup (tagContent name attributes ++ ['>'] ++ rest)
      = .ok (.start (.written name attributes), rest) := by
  obtain ⟨first, more, shape, plain⟩ := exists_cons_tagContent isName attributes
  have notSlash : first ≠ '/' := by
    rintro rfl
    cases plain
  have ended := (IsPassed.tagContent isName keys).splitTag_eq rest
  have unended := getLast?_tagContent isName attributes
  rw [List.append_assoc, List.singleton_append, Tag.written]
  rw [shape] at ended unended ⊢
  rw [List.cons_append] at ended ⊢
  rw [ofMarkup_name plain, ofTag, ended]
  simp [notSlash, unended]

/-- A written empty tag is read as such. -/
theorem ofMarkup_empty (isName : IsName name.toList)
    (keys : ∀ pair ∈ attributes, IsName pair.1.toList) (rest : List Char) :
    ofMarkup (tagContent name attributes ++ "/>".toList ++ rest)
      = .ok (.empty (.written name attributes), rest) := by
  obtain ⟨first, more, shape, plain⟩ := exists_cons_tagContent isName attributes
  have notSlash : first ≠ '/' := by
    rintro rfl
    cases plain
  have slash : IsPassed ['/'] := .of_free (by simp)
  have ended := ((IsPassed.tagContent isName keys).append slash).splitTag_eq rest
  have written : tagContent name attributes ++ "/>".toList ++ rest
      = tagContent name attributes ++ ['/'] ++ '>' :: rest := by
    simp
  rw [written, Tag.written]
  rw [shape] at ended ⊢
  rw [List.cons_append, List.cons_append] at ended ⊢
  have last : (first :: (more ++ ['/'])).getLast? = some '/' := by
    rw [← List.cons_append, List.getLast?_concat]
  have front : (first :: (more ++ ['/'])).dropLast = first :: more := by
    rw [← List.cons_append, List.dropLast_concat]
  rw [ofMarkup_name plain, ofTag, ended]
  simp [notSlash, last, front]

/-- A written end tag is read as such. -/
theorem ofMarkup_finish {name : List Char} (isName : IsName name) (rest : List Char) :
    ofMarkup ('/' :: name ++ ['>'] ++ rest) = .ok (.finish name, rest) := by
  have slash : IsPassed ['/'] := .of_free (by simp)
  have ended := (slash.append (.of_isName isName)).splitTag_eq rest
  have untrimmed : Text.dropEndWhile isSpace name = name := by
    obtain ⟨last, front, shape⟩ : ∃ last front, name.reverse = last :: front := by
      cases reversed : name.reverse with
      | nil => exact absurd (List.reverse_eq_nil_iff.1 reversed) isName.1
      | cons last front => exact ⟨last, front, rfl⟩
    have notBlank : isSpace last = false := by
      simpa [Attribute.isNotSpace] using
        isName.isNotSpace (List.mem_reverse.1 (shape ▸ List.mem_cons_self))
    rw [Text.dropEndWhile, shape, List.dropWhile_cons_of_neg (by simp [notBlank]), ← shape,
      List.reverse_reverse]
  have shown : endName name = name := by
    rw [endName, untrimmed]
    split
    · rfl
    · rfl
  have written : '/' :: name ++ ['>'] ++ rest = ['/'] ++ name ++ '>' :: rest := by
    simp
  rw [written, ofMarkup, ofTag, ended]
  · simp [shown]
  · simp
  · simp

/-- Other markup is closed by the first closing bracket, if it may end there. -/
theorem splitClose_append {ends : List Char → Bool} {front : List Char} (free : '>' ∉ front)
    (passed rest : List Char) (closes : ends (front.reverse ++ passed) = true) :
    splitClose ends passed (front ++ '>' :: rest) = some (passed.reverse ++ front, rest) := by
  induction front generalizing passed with
  | nil =>
      rw [List.reverse_nil, List.nil_append] at closes
      simp [splitClose, closes]
  | cons char tail ih =>
      rw [List.mem_cons, not_or] at free
      have later := ih free.2 (char :: passed) (by simpa using closes)
      have inside : (decide (char = '>') && ends passed) = false := by
        simp [Ne.symm free.1]
      rw [List.cons_append, splitClose, inside, if_neg Bool.false_ne_true, later]
      simp

/-- What stands between the question marks of the standard declaration. -/
def declared : List Char :=
  "xml version=\"1.0\" encoding=\"UTF-8\" standalone=\"yes\"".toList

/-- The standard declaration is read as such. -/
theorem ofMarkup_declaration (rest : List Char) :
    ofMarkup (Markup.declaration.toList.tail ++ rest) = .ok (.declaration declared, rest) := by
  have shape : Markup.declaration.toList.tail = '?' :: (declared ++ ['?']) ++ ['>'] := by
    decide
  have free : '>' ∉ '?' :: (declared ++ ['?']) := by decide
  have ends : endsInstruction (('?' :: (declared ++ ['?'])).reverse ++ []) = true := by decide
  have closed := splitClose_append free [] rest ends
  rw [List.reverse_nil, List.nil_append, List.cons_append] at closed
  rw [shape, List.append_assoc, List.singleton_append, List.cons_append, ofMarkup, ofQuestion, closed]
  have inner : (('?' :: (declared ++ ['?'])).drop 1).dropLast = declared := by
    simp
  have long : ¬('?' :: (declared ++ ['?'])).length < 2 := by
    simp
  have isDeclaration : ("xml".toList.isPrefixOf declared
      && (declared.drop 3).head?.all isSpace) = true := by
    decide
  simp only [long, if_false, inner, isDeclaration, if_true]

end Event

namespace Reading

/-- A reading with events before it. -/
def prepend (events : List Event) (reading : Reading) : Reading :=
  { reading with events := events ++ reading.events }

@[simp] theorem prepend_prepend (front back : List Event) (reading : Reading) :
    (reading.prepend back).prepend front = reading.prepend (front ++ back) := by
  simp [prepend]

theorem consText_eq (chars : List Char) (reading : Reading) :
    consText chars reading = reading.prepend (textEvents chars) := by
  unfold consText textEvents
  split <;> simp [*, prepend, cons]

/-- A text at the end of a document is read as its event. -/
theorem read_text (opened : List (List Char)) {chars : List Char} (free : '<' ∉ chars) :
    read opened chars = ⟨textEvents chars, none⟩ := by
  have all : ∀ char ∈ chars, (char != '<') = true := fun _ member =>
    bne_iff_ne.2 (ne_of_mem_of_not_mem member free)
  have taken : chars.takeWhile (· != '<') = chars := List.takeWhile_eq_self_iff.2 all
  have dropped : chars.dropWhile (· != '<') = [] := List.dropWhile_eq_nil_iff.2 all
  rw [read, consText_eq, taken]
  split
  · simp [prepend]
  · rename_i bracket
    rw [dropped] at bracket
    cases bracket

/-- A text and one event are read before what follows them. -/
theorem read_event {opened opened' : List (List Char)} {front body rest : List Char}
    {event : Event} (free : '<' ∉ front) (reads : Event.ofMarkup body = .ok (event, rest))
    (nests : event.nest opened = .ok opened') :
    read opened (front ++ '<' :: body)
      = (read opened' rest).prepend (textEvents front ++ [event]) := by
  have all : ∀ char ∈ front, (char != '<') = true := fun _ member =>
    bne_iff_ne.2 (ne_of_mem_of_not_mem member free)
  have stops : ('<' != '<') = false := rfl
  have taken := Attribute.takeWhile_append_cons all stops body
  have dropped := Attribute.dropWhile_append_cons all stops body
  rw [read, consText_eq, taken]
  split
  · rename_i ended
    rw [dropped] at ended
    cases ended
  · rename_i tail bracket
    rw [dropped] at bracket
    obtain ⟨-, rfl⟩ := List.cons.inj bracket
    split
    · rename_i failed
      rw [reads] at failed
      cases failed
    · rename_i event' rest' read'
      rw [reads] at read'
      obtain ⟨rfl, rfl⟩ := Prod.mk.inj (Except.ok.inj read')
      rw [nests]
      simp [prepend, cons]

end Reading

/-- A text that is still to be read where pieces go on. No line break may come
between it and the next tag, and none does unless the text is empty. -/
def IsPending (front : List Char) (breaks : Bool) : Prop :=
  '<' ∉ front ∧ (breaks = true → front = [])

/-- What pieces are read as while elements are open, whatever text is pending. -/
def ReadsAs (layout : Layout) (opened : List (List Char)) (pieces : List Piece)
    (reading : Reading) : Prop :=
  ∀ front breaks, IsPending front breaks →
    Reading.read opened (front ++ layout.place breaks pieces)
      = reading.prepend (textEvents front)

namespace ReadsAs

variable {layout : Layout}

theorem nil (opened : List (List Char)) : ReadsAs layout opened [] ⟨[], none⟩ := by
  rintro front breaks ⟨free, -⟩
  rw [Layout.place, List.append_nil, Reading.read_text opened free]
  simp [Reading.prepend]

/-- The blanks before a tag are no event, and belong to no pending text. -/
theorem textEvents_break (layout : Layout) {front : List Char} {breaks : Bool}
    (pending : IsPending front breaks) (depth : Nat) :
    let blanks := if breaks && layout == .indented then
      '\n' :: List.replicate (2 * depth) ' ' else []
    '<' ∉ front ++ blanks ∧ textEvents (front ++ blanks) = textEvents front := by
  intro blanks
  by_cases indents : (breaks && layout == .indented) = true
  · obtain rfl := pending.2 (Bool.and_eq_true_iff.1 indents).1
    have only : ∀ char ∈ blanks, isSpace char = true := by
      intro char member
      simp only [blanks, indents, if_true, List.mem_cons, List.mem_replicate] at member
      rcases member with rfl | ⟨-, rfl⟩ <;> rfl
    have dropped : blanks.dropWhile isSpace = [] := List.dropWhile_eq_nil_iff.2 only
    refine ⟨fun member => absurd (only '<' (by simpa using member)) (by decide), ?_⟩
    rw [List.nil_append, textEvents, dropped]
    rfl
  · have none : blanks = [] := if_neg indents
    rw [none, List.append_nil]
    exact ⟨pending.1, rfl⟩

/-- A tag, and the text behind it if there is one, before pieces. -/
theorem tag {opened opened' : List (List Char)} (body : List Char) {event : Event}
    {later : List Piece} {reading : Reading} (continues : ReadsAs layout opened' later reading)
    (reads : ∀ rest, Event.ofMarkup (body ++ rest) = .ok (event, rest))
    (nests : event.nest opened = .ok opened') (text : Option String) (depth : Nat) :
    ReadsAs layout opened
      (.tag depth ('<' :: body)
        :: (text.toList.map fun shown => Piece.text (escape shown.toList)) ++ later)
      (reading.prepend
        (event :: text.toList.flatMap fun shown => textEvents (escape shown.toList))) := by
  intro front breaks pending
  obtain ⟨free, unseen⟩ := textEvents_break layout pending depth
  rw [List.cons_append, Layout.place, ← List.append_assoc, ← List.append_assoc, List.append_assoc,
    List.cons_append, Reading.read_event free (reads _) nests, unseen]
  cases text with
  | none =>
      have none := continues [] true ⟨by simp, fun _ => rfl⟩
      rw [List.nil_append] at none
      simp [none, textEvents, Text.dropEndWhile]
  | some shown =>
      have some := continues (escape shown.toList) false
        ⟨less_notMem_escape shown.toList, fun breaks => by cases breaks⟩
      simp [Layout.place, some]

mutual

/-- The pieces of an element are read as its events. -/
theorem pieces : ∀ (element : Element), element.IsWellNamed → ∀ (depth : Nat)
    {opened : List (List Char)} {later : List Piece} {reading : Reading},
    ReadsAs layout opened later reading →
    ReadsAs layout opened (element.pieces depth ++ later) (reading.prepend element.events)
  | ⟨name, attributes, text, children⟩, ⟨isName, keys, wellNamed⟩, depth, opened, later,
      reading, continues => by
    rw [Element.pieces, Element.events]
    split
    · exact tag (tagContent name attributes ++ "/>".toList) continues
        (Event.ofMarkup_empty isName keys) rfl none depth
    · -- Behind the start tag the element is open; its end tag closes it again.
      have starts : (Event.start (.written name attributes)).nest opened
          = .ok (name.toList :: opened) := by
        rw [Event.nest, Tag.name_written isName]
      have closes : (Event.finish name.toList).nest (name.toList :: opened) = .ok opened := by
        rw [Event.nest, if_pos rfl]
      have finish := tag ('/' :: name.toList ++ ['>']) continues
        (Event.ofMarkup_finish isName) closes none depth
      have inside := piecesAll children wellNamed (depth + 1) finish
      have whole := tag (tagContent name attributes ++ ['>']) inside
        (Event.ofMarkup_start isName keys) starts text depth
      simpa using whole

/-- The pieces of elements side by side are read as their events. -/
theorem piecesAll : ∀ (elements : List Element), Element.AreWellNamed elements → ∀ (depth : Nat)
    {opened : List (List Char)} {later : List Piece} {reading : Reading},
    ReadsAs layout opened later reading →
    ReadsAs layout opened (Element.piecesAll depth elements ++ later)
      (reading.prepend (Element.eventsAll elements))
  | [], _, _, _, _, _, continues => continues
  | element :: rest, ⟨wellNamed, restWellNamed⟩, depth, opened, later, reading, continues => by
    rw [Element.piecesAll, Element.eventsAll, List.append_assoc, ← Reading.prepend_prepend]
    exact pieces element wellNamed depth (piecesAll rest restWellNamed depth continues)

end

end ReadsAs

/-- The document of a well-named element is read without a fault as its declaration and its
events. The layout leaves no trace. -/
theorem Reading.ofText_document (layout : Layout) {element : Element}
    (wellNamed : element.IsWellNamed) :
    Reading.ofText (element.document layout)
      = ⟨.declaration Event.declared :: element.events, none⟩ := by
  have nothing : ReadsAs layout [] [] ⟨[], none⟩ := ReadsAs.nil []
  have body := ReadsAs.pieces element wellNamed 0 nothing ['\n'] false
    ⟨by decide, fun breaks => by cases breaks⟩
  have shape : (element.document layout).toList
      = [] ++ '<' :: (declaration.toList.tail ++ (['\n'] ++ element.body layout)) := by
    rw [toList_document]
    rfl
  have free : '<' ∉ ([] : List Char) := List.not_mem_nil
  have declares : Reading.read [] _ = _ := Reading.read_event free
    (Event.ofMarkup_declaration (['\n'] ++ element.body layout)) rfl
  rw [Reading.ofText]
  split
  · rename_i mark
    rw [shape] at mark
    exact absurd (List.cons.inj mark).1 (by decide)
  · rw [shape, declares, Element.body]
    rw [List.append_nil] at body
    rw [body]
    simp [Reading.prepend, textEvents, isSpace, Text.dropEndWhile]

theorem Reading.fault_document (layout : Layout) {element : Element}
    (wellNamed : element.IsWellNamed) :
    (Reading.ofText (element.document layout)).fault = none := by
  rw [ofText_document layout wellNamed]

theorem Reading.tags_document (layout : Layout) {element : Element}
    (wellNamed : element.IsWellNamed) :
    (Reading.ofText (element.document layout)).tags = element.tags := by
  rw [ofText_document layout wellNamed, ← Element.filterMap_tag?_events]
  rfl

end WordPackage.Markup
