import WordPackage.Proofs.Markup.Tree

/-!
# Well-formed documents

The grammar of XML 1.0, as far as it is needed here: without comments, instructions,
sections of character data and document types behind the declaration, and with attributes
in double quotation marks after one blank each. A text is well formed if it has the shape of
a document and consists of characters that a document may have.

Every document of a proper tree has this shape. Whether its characters are those of a
document is up to the texts and attribute values of the tree: five characters are
written as entities, all others as they are.
-/

namespace WordPackage.Markup

/-- The names of the predefined entities. -/
def entityNames : List (List Char) :=
  ["lt".toList, "gt".toList, "amp".toList, "apos".toList, "quot".toList]

/-- Characters among which no `<` stands, and an ampersand only at the start of a predefined
entity. -/
inductive IsMarkupFree : List Char → Prop where
  | nil : IsMarkupFree []
  | char {char : Char} {rest : List Char} (notTag : char ≠ '<') (notEntity : char ≠ '&')
      (restFree : IsMarkupFree rest) : IsMarkupFree (char :: rest)
  | entity {name rest : List Char} (named : name ∈ entityNames) (restFree : IsMarkupFree rest) :
      IsMarkupFree ('&' :: name ++ ';' :: rest)

/-- The production `CharData`, with entities: the end of a section of character data must not
occur. -/
structure IsCharData (chars : List Char) : Prop where
  free : IsMarkupFree chars
  unended : ¬"]]>".toList <:+: chars

/-- Attributes as they stand in a tag, with the list of their keys. No key comes twice. -/
inductive IsAttributes : List String → List Char → Prop where
  | nil : IsAttributes [] []
  | cons {key : String} {value : List Char} {keys : List String} {rest : List Char}
      (isName : IsXmlName key) (new : key ∉ keys) (free : IsMarkupFree value)
      (unquoted : '"' ∉ value) (later : IsAttributes keys rest) :
      IsAttributes (key :: keys) (' ' :: key.toList ++ "=\"".toList ++ value ++ ['"'] ++ rest)

mutual

/-- The production `element`. -/
inductive IsElement : List Char → Prop where
  | empty {name : String} {keys : List String} {attributes : List Char} (isName : IsXmlName name)
      (isAttributes : IsAttributes keys attributes) :
      IsElement ('<' :: name.toList ++ attributes ++ "/>".toList)
  | content {name : String} {keys : List String} {attributes content : List Char}
      (isName : IsXmlName name) (isAttributes : IsAttributes keys attributes)
      (isContent : IsContent content) :
      IsElement ('<' :: name.toList ++ attributes ++ ['>'] ++ content
        ++ ("</".toList ++ name.toList ++ ['>']))

/-- The production `content`. -/
inductive IsContent : List Char → Prop where
  | text {chars : List Char} (isText : IsCharData chars) : IsContent chars
  | element {chars element rest : List Char} (isText : IsCharData chars)
      (isElement : IsElement element) (isContent : IsContent rest) :
      IsContent (chars ++ element ++ rest)

end

/-- The shape of a document: one declaration, blanks and one element. -/
def IsDocument (text : String) : Prop :=
  ∃ blanks element, text.toList = declaration.toList ++ blanks ++ element ∧
    (∀ char ∈ blanks, isSpace char = true) ∧ IsElement element

/-- Whether every character of a text may stand in a document. -/
def IsXmlText (text : String) : Prop :=
  ∀ char ∈ text.toList, isXmlChar char = true

instance (text : String) : Decidable (IsXmlText text) :=
  List.decidableBAll (fun char => isXmlChar char = true) text.toList

theorem IsXmlText.of_spelled {text : String} {chars : List Char} (spelled : text = .ofList chars)
    (allowed : chars.all isXmlChar = true) : IsXmlText text := by
  rw [spelled, IsXmlText, String.toList_ofList]
  exact List.all_eq_true.1 allowed

/-- Whether a text is a well-formed document. -/
structure IsWellFormed (text : String) : Prop where
  document : IsDocument text
  characters : IsXmlText text

namespace IsMarkupFree

theorem append {front back : List Char} (frontFree : IsMarkupFree front)
    (backFree : IsMarkupFree back) : IsMarkupFree (front ++ back) := by
  induction frontFree with
  | nil => exact backFree
  | char notTag notEntity _ ih => exact .char notTag notEntity ih
  | entity named _ ih =>
      rw [List.append_assoc, List.cons_append]
      exact .entity named ih

/-- Blanks are free of markup. -/
theorem of_blanks {blanks : List Char} (isBlank : ∀ char ∈ blanks, isSpace char = true) :
    IsMarkupFree blanks := by
  induction blanks with
  | nil => exact .nil
  | cons blank rest ih =>
      have space := isBlank blank List.mem_cons_self
      refine .char ?_ ?_ (ih fun char member => isBlank char (List.mem_cons_of_mem _ member))
      · rintro rfl
        cases space
      · rintro rfl
        cases space

/-- A character is free of markup as it is written. -/
theorem escapeChar (char : Char) : IsMarkupFree (escapeChar char) := by
  by_cases plain : isSpecial char = false
  · rw [escapeChar_of_not_special plain]
    refine .char ?_ ?_ .nil
    · rintro rfl
      cases plain
    · rintro rfl
      cases plain
  · rcases eq_of_isSpecial plain with rfl | rfl | rfl | rfl | rfl
    · exact .entity (by decide : "lt".toList ∈ entityNames) .nil
    · exact .entity (by decide : "gt".toList ∈ entityNames) .nil
    · exact .entity (by decide : "amp".toList ∈ entityNames) .nil
    · exact .entity (by decide : "apos".toList ∈ entityNames) .nil
    · exact .entity (by decide : "quot".toList ∈ entityNames) .nil

theorem escape (chars : List Char) : IsMarkupFree (escape chars) := by
  induction chars with
  | nil => exact .nil
  | cons char rest ih =>
      rw [escape_cons]
      exact (escapeChar char).append ih

end IsMarkupFree

theorem IsCharData.of_free {chars : List Char} (free : IsMarkupFree chars)
    (unclosed : '>' ∉ chars) : IsCharData chars where
  free := free
  unended := by
    intro ended
    exact unclosed (ended.subset (by decide : '>' ∈ "]]>".toList))

/-- Written attributes have the form of attributes. -/
theorem IsAttributes.written {attributes : List (String × String)}
    (keys : ∀ key ∈ attributes.map Prod.fst, IsXmlName key)
    (distinct : (attributes.map Prod.fst).Nodup) :
    IsAttributes (attributes.map Prod.fst) (attributes.flatMap writtenAttribute) := by
  induction attributes with
  | nil => exact .nil
  | cons pair rest ih =>
      rw [List.map_cons, List.nodup_cons] at distinct
      rw [List.map_cons] at keys ⊢
      have later := ih (fun key member => keys key (List.mem_cons_of_mem _ member)) distinct.2
      exact .cons (keys _ List.mem_cons_self) distinct.1 (.escape pair.2.toList)
        (quote_notMem_escape pair.2.toList) later

namespace Layout

/-- What stands before a tag where the layout begins a new line. -/
def lineBreak (layout : Layout) (breaks : Bool) (depth : Nat) : List Char :=
  if breaks && layout == .indented then '\n' :: List.replicate (2 * depth) ' ' else []

theorem place_tag (layout : Layout) (breaks : Bool) (depth : Nat) (markup : List Char)
    (later : List Piece) :
    layout.place breaks (.tag depth markup :: later)
      = layout.lineBreak breaks depth ++ markup ++ layout.place true later := by
  rw [place]
  rfl

theorem eq_of_mem_lineBreak {layout : Layout} {breaks : Bool} {depth : Nat} {char : Char}
    (member : char ∈ layout.lineBreak breaks depth) : char = '\n' ∨ char = ' ' := by
  unfold lineBreak at member
  split at member
  · rcases List.mem_cons.1 member with rfl | indented
    · exact .inl rfl
    · exact .inr (List.eq_of_mem_replicate indented)
  · cases member

/-- A line break goes on with a text that holds no markup. -/
theorem free_append_lineBreak {front : List Char} (free : IsMarkupFree front)
    (unclosed : '>' ∉ front) (layout : Layout) (breaks : Bool) (depth : Nat) :
    IsCharData (front ++ layout.lineBreak breaks depth) := by
  refine .of_free (free.append (.of_blanks ?_)) ?_
  · intro char member
    rcases eq_of_mem_lineBreak member with rfl | rfl
    · rfl
    · rfl
  · intro member
    rcases List.mem_append.1 member with inFront | inBreak
    · exact unclosed inFront
    · rcases eq_of_mem_lineBreak inBreak with same | same
      · cases same
      · cases same

end Layout

namespace Element

mutual

/-- The pieces of a proper element are placed as an element. -/
theorem exists_isElement_pieces (layout : Layout) : ∀ element : Element, element.IsProper →
    ∀ depth, ∃ markup, IsElement markup ∧ ∀ breaks later,
      layout.place breaks (element.pieces depth ++ later)
        = layout.lineBreak breaks depth ++ markup ++ layout.place true later
  | ⟨name, attributes, text, children⟩, proper, depth => by
      obtain ⟨tag, below⟩ := isProper_iff.1 proper
      have isAttributes := IsAttributes.written tag.keys tag.distinct
      by_cases leaf : (text.isNone && children.isEmpty) = true
      · refine ⟨_, .empty tag.name isAttributes, ?_⟩
        intro breaks later
        rw [pieces, if_pos leaf, List.singleton_append, Layout.place_tag]
        rfl
      · -- The text, if there is one, is pending where the children begin.
        obtain ⟨front, breaks', free, unended, texts⟩ : ∃ front breaks', IsMarkupFree front ∧
            '>' ∉ front ∧ ∀ later, layout.place true
              ((text.toList.map fun shown => Piece.text (escape shown.toList)) ++ later)
                = front ++ layout.place breaks' later := by
          cases text with
          | none => exact ⟨[], true, .nil, List.not_mem_nil, fun _ => rfl⟩
          | some shown =>
              exact ⟨escape shown.toList, false, .escape _, greater_notMem_escape _, fun _ => rfl⟩
        obtain ⟨content, isContent, inside⟩ :=
          exists_isContent_piecesAll layout children below (depth + 1) depth free unended breaks'
        refine ⟨_, .content tag.name isAttributes isContent, ?_⟩
        intro breaks later
        rw [pieces, if_neg leaf, List.append_assoc, List.append_assoc, List.cons_append,
          Layout.place_tag, List.append_assoc, texts, List.singleton_append, inside]
        simp [tagContent_eq]

/-- The pieces of proper elements side by side are placed, behind a pending text and up to the end
tag that follows them, as content. -/
theorem exists_isContent_piecesAll (layout : Layout) : ∀ elements : List Element,
    (∀ element ∈ elements, element.IsProper) → ∀ (depth closing : Nat) {front : List Char},
    IsMarkupFree front → '>' ∉ front → ∀ breaks, ∃ content, IsContent content ∧ ∀ finish later,
      front ++ layout.place breaks (piecesAll depth elements ++ .tag closing finish :: later)
        = content ++ finish ++ layout.place true later
  | [], _, depth, closing, front, free, unended, breaks => by
      refine ⟨_, .text (Layout.free_append_lineBreak free unended layout breaks closing), ?_⟩
      intro finish later
      rw [piecesAll, List.nil_append, Layout.place_tag]
      simp
  | element :: rest, proper, depth, closing, front, free, unended, breaks => by
      obtain ⟨markup, isElement, first⟩ := exists_isElement_pieces layout element
        (proper element List.mem_cons_self) depth
      obtain ⟨content, isContent, others⟩ := exists_isContent_piecesAll layout rest
        (fun other member => proper other (List.mem_cons_of_mem _ member)) depth closing .nil
        List.not_mem_nil true
      refine ⟨_, .element (Layout.free_append_lineBreak free unended layout breaks depth) isElement
        isContent, ?_⟩
      intro finish later
      have behind := others finish later
      rw [List.nil_append] at behind
      rw [piecesAll, List.append_assoc, first, behind]
      simp

end

theorem IsProper.isDocument {element : Element} (proper : element.IsProper) (layout : Layout) :
    IsDocument (element.document layout) := by
  obtain ⟨markup, isElement, placed⟩ := exists_isElement_pieces layout element proper 0
  refine ⟨['\n'], markup, ?_, List.forall_mem_singleton.2 rfl, isElement⟩
  have whole := placed false []
  rw [List.append_nil] at whole
  rw [toList_document, body, whole]
  simp [Layout.lineBreak, Layout.place]

end Element

/-- A written text has no characters that may not stand in a document unless the text has. -/
theorem forall_isXmlChar_escape_iff (chars : List Char) :
    (∀ char ∈ escape chars, isXmlChar char = true) ↔ ∀ char ∈ chars, isXmlChar char = true := by
  induction chars with
  | nil => simp
  | cons char rest ih =>
      have single : (escapeChar char).all isXmlChar = true ↔ isXmlChar char = true := by
        by_cases plain : isSpecial char = false
        · simp [escapeChar_of_not_special plain]
        · rcases eq_of_isSpecial plain with rfl | rfl | rfl | rfl | rfl <;> decide
      rw [List.all_eq_true] at single
      rw [escape_cons, List.forall_mem_append, List.forall_mem_cons, single, ih]

theorem IsXmlName.isXmlText {name : String} (isName : IsXmlName name) : IsXmlText name :=
  fun char member => isXmlChar_of_inRanges (isName.2 char member)

/-- The content of a tag with proper names has only characters of a document exactly if the values
have. -/
theorem forall_isXmlChar_tagContent_iff {name : String} {attributes : List (String × String)}
    (isName : IsXmlName name) (keys : ∀ key ∈ attributes.map Prod.fst, IsXmlName key) :
    (∀ char ∈ tagContent name attributes, isXmlChar char = true)
      ↔ ∀ pair ∈ attributes, IsXmlText pair.2 := by
  have single : ∀ pair ∈ attributes,
      (∀ char ∈ writtenAttribute pair, isXmlChar char = true) ↔ IsXmlText pair.2 := by
    intro pair member
    have key := (keys pair.1 (List.mem_map_of_mem member)).isXmlText
    have space : isXmlChar ' ' = true := by decide
    have opened : IsXmlText "=\"" := by decide
    have closed : ∀ char ∈ ['"'], isXmlChar char = true := List.forall_mem_singleton.2 (by decide)
    rw [IsXmlText, ← forall_isXmlChar_escape_iff pair.2.toList, writtenAttribute,
      List.forall_mem_append, List.forall_mem_append, List.forall_mem_append,
      List.forall_mem_cons]
    exact ⟨fun whole => whole.1.2, fun value => ⟨⟨⟨⟨space, key⟩, opened⟩, value⟩, closed⟩⟩
  rw [tagContent_eq, List.forall_mem_append]
  constructor
  · intro whole pair member
    refine (single pair member).1 fun char inside => whole.2 char ?_
    exact List.mem_flatMap.2 ⟨pair, member, inside⟩
  · intro values
    refine ⟨isName.isXmlText, ?_⟩
    intro char inside
    obtain ⟨pair, member, written⟩ := List.mem_flatMap.1 inside
    exact (single pair member).2 (values pair member) char written

/-- The characters of a piece. -/
def Piece.chars : Piece → List Char
  | .tag _ markup => markup
  | .text escaped => escaped

/-- Line breaks aside, the characters of a document are those of its pieces. -/
theorem Layout.forall_mem_place_iff {holds : Char → Prop} (lineFeed : holds '\n')
    (space : holds ' ') (layout : Layout) {breaks : Bool} {pieces : List Piece} :
    (∀ char ∈ layout.place breaks pieces, holds char)
      ↔ ∀ piece ∈ pieces, ∀ char ∈ piece.chars, holds char := by
  induction pieces generalizing breaks with
  | nil => simp [place]
  | cons piece rest ih =>
      cases piece with
      | text escaped =>
          rw [place, List.forall_mem_append, List.forall_mem_cons, ih]
          rfl
      | tag depth markup =>
          have lineBreak : ∀ char ∈ layout.lineBreak breaks depth, holds char := by
            intro char member
            rcases eq_of_mem_lineBreak member with rfl | rfl
            · exact lineFeed
            · exact space
          rw [place_tag, List.forall_mem_append, List.forall_mem_append, List.forall_mem_cons, ih]
          exact ⟨fun whole => ⟨whole.1.2, whole.2⟩, fun whole => ⟨⟨lineBreak, whole.1⟩, whole.2⟩⟩

namespace Element

/-- Whether the text and the attribute values of an element have only characters of a document. -/
structure HasXmlText (element : Element) : Prop where
  text : ∀ text ∈ element.text, IsXmlText text
  values : ∀ pair ∈ element.attributes, IsXmlText pair.2

mutual

/-- The pieces of a proper element have only characters of a document exactly if all its texts and
values have. -/
theorem forall_pieces_iff : ∀ element : Element, element.IsProper → ∀ depth,
    (∀ piece ∈ element.pieces depth, ∀ char ∈ piece.chars, isXmlChar char = true)
      ↔ ∀ inner ∈ element.preorder, inner.HasXmlText
  | ⟨name, attributes, text, children⟩, proper, depth => by
      obtain ⟨tag, below⟩ := isProper_iff.1 proper
      have all := forall_piecesAll_iff children below (depth + 1)
      have closing : ∀ char ∈ ['>'], isXmlChar char = true :=
        List.forall_mem_singleton.2 (by decide)
      have bracketed : ∀ ending : List Char, (∀ char ∈ ending, isXmlChar char = true) →
          ((∀ char ∈ '<' :: tagContent name attributes ++ ending, isXmlChar char = true)
            ↔ ∀ pair ∈ attributes, IsXmlText pair.2) := by
        intro ending ends
        rw [List.cons_append, List.forall_mem_cons, List.forall_mem_append,
          forall_isXmlChar_tagContent_iff tag.name tag.keys]
        exact ⟨fun whole => whole.2.1, fun values => ⟨by decide, values, ends⟩⟩
      have finish : ∀ char ∈ "</".toList ++ name.toList ++ ['>'], isXmlChar char = true := by
        rw [List.forall_mem_append, List.forall_mem_append]
        exact ⟨⟨List.all_eq_true.1 (by decide), tag.name.isXmlText⟩, closing⟩
      have texts : (∀ piece ∈ (text.toList.map fun shown => Piece.text (escape shown.toList)),
          ∀ char ∈ piece.chars, isXmlChar char = true) ↔ ∀ shown ∈ text, IsXmlText shown := by
        cases text with
        | none => simp
        | some shown =>
            simpa [Piece.chars, IsXmlText] using forall_isXmlChar_escape_iff shown.toList
      rw [forall_mem_preorder_iff, pieces]
      by_cases leaf : (text.isNone && children.isEmpty) = true
      · obtain ⟨textless, childless⟩ := Bool.and_eq_true_iff.1 leaf
        obtain rfl := Option.isNone_iff_eq_none.1 textless
        obtain rfl := List.isEmpty_iff.1 childless
        rw [if_pos leaf, List.forall_mem_cons, Piece.chars,
          bracketed _ (List.all_eq_true.1 (by decide))]
        constructor
        · rintro ⟨values, -⟩
          exact ⟨⟨fun _ none => (nomatch none), values⟩, fun _ none => nomatch none⟩
        · rintro ⟨own, -⟩
          exact ⟨own.values, fun _ none => nomatch none⟩
      · rw [if_neg leaf, List.forall_mem_append, List.cons_append, List.forall_mem_cons,
          List.forall_mem_append, texts, all, Piece.chars, bracketed _ closing]
        constructor
        · rintro ⟨⟨values, shown, inside⟩, -⟩
          exact ⟨⟨shown, values⟩, inside⟩
        · rintro ⟨own, inside⟩
          refine ⟨⟨own.values, own.text, inside⟩, ?_⟩
          intro piece last
          obtain rfl := List.mem_singleton.1 last
          exact finish

/-- The pieces of proper elements side by side have only characters of a document exactly if all
their texts and values have. -/
theorem forall_piecesAll_iff : ∀ elements : List Element,
    (∀ element ∈ elements, element.IsProper) → ∀ depth,
    (∀ piece ∈ piecesAll depth elements, ∀ char ∈ piece.chars, isXmlChar char = true)
      ↔ ∀ element ∈ elements, ∀ inner ∈ element.preorder, inner.HasXmlText
  | [], _, _ => by simp [piecesAll]
  | element :: rest, proper, depth => by
      rw [piecesAll, List.forall_mem_append, List.forall_mem_cons,
        forall_pieces_iff element (proper element List.mem_cons_self) depth,
        forall_piecesAll_iff rest
          (fun other member => proper other (List.mem_cons_of_mem _ member)) depth]

end

/-- The document of a proper element is well formed exactly if all texts and values in it have only
characters of a document. -/
theorem IsProper.isWellFormed_iff {element : Element} (proper : element.IsProper)
    (layout : Layout) :
    IsWellFormed (element.document layout) ↔ ∀ inner ∈ element.preorder, inner.HasXmlText := by
  have declared : IsXmlText declaration := .of_spelled rfl (by decide)
  have characters : IsXmlText (element.document layout)
      ↔ ∀ inner ∈ element.preorder, inner.HasXmlText := by
    rw [IsXmlText, toList_document, body, List.forall_mem_append, List.forall_mem_cons,
      layout.forall_mem_place_iff (by decide) (by decide), forall_pieces_iff element proper]
    exact ⟨fun whole => whole.2.2, fun all => ⟨declared, by decide, all⟩⟩
  constructor
  · intro wellFormed
    exact characters.1 wellFormed.characters
  · intro all
    exact ⟨proper.isDocument layout, characters.2 all⟩

end Element

end WordPackage.Markup
