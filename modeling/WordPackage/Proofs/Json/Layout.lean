import Mathlib.Data.List.Forall2
import Mathlib.Data.List.TakeWhile
import WordPackage.Json.Lexeme
import WordPackage.Json.Value

/-!
# Tokens and their layouts

A JSON text is a sequence of tokens with blanks before, between and behind them. The compact and
the indented layout of a value have the same tokens and differ in the blanks alone, so what holds
of every layout of the tokens of a value holds of both.
-/

namespace WordPackage.Json

/-- Characters between which no blank may be put. -/
abbrev Token := List Char

/-- Whether characters are blanks. -/
def IsBlank (chars : List Char) : Prop :=
  ∀ char ∈ chars, char.isWhitespace = true

instance (chars : List Char) : Decidable (IsBlank chars) :=
  decidable_of_iff (chars.all Char.isWhitespace = true) List.all_eq_true

theorem isBlank_nil : IsBlank [] := fun _ none => nomatch none

/-- The characters of tokens in their order, with any blanks before, between and behind them. -/
inductive LaysOut : List Token → List Char → Prop where
  | blank {chars : List Char} (isBlank : IsBlank chars) : LaysOut [] chars
  | token {front rest : List Char} {first : Token} {tokens : List Token}
      (isBlank : IsBlank front) (later : LaysOut tokens rest) :
      LaysOut (first :: tokens) (front ++ (first ++ rest))

theorem skipSpace_append {front : List Char} (isBlank : IsBlank front) {char : Char}
    (isSolid : char.isWhitespace = false) (rest : List Char) :
    skipSpace (front ++ char :: rest) = char :: rest := by
  rw [skipSpace, List.dropWhile_append_of_pos isBlank, List.dropWhile_cons_of_neg]
  rw [isSolid]
  exact Bool.false_ne_true

namespace LaysOut

variable {tokens more : List Token} {chars others : List Char}

theorem skipSpace_eq {first : Char} {letters : List Char}
    (laid : LaysOut ((first :: letters) :: tokens) chars)
    (isSolid : first.isWhitespace = false) :
    ∃ rest, skipSpace chars = first :: (letters ++ rest) ∧ LaysOut tokens rest := by
  cases laid with
  | token isBlank later => exact ⟨_, skipSpace_append isBlank isSolid _, later⟩

theorem skipSpace_eq_nil (laid : LaysOut [] chars) : skipSpace chars = [] := by
  cases laid with
  | blank isBlank => exact List.dropWhile_eq_nil_iff.2 isBlank

theorem prepend {front : List Char} (isBlank : IsBlank front) (laid : LaysOut tokens chars) :
    LaysOut tokens (front ++ chars) := by
  cases laid with
  | blank isBlank' => exact .blank (List.forall_mem_append.2 ⟨isBlank, isBlank'⟩)
  | token isBlank' later =>
      rw [← List.append_assoc]
      exact .token (List.forall_mem_append.2 ⟨isBlank, isBlank'⟩) later

theorem append (laid : LaysOut tokens chars) (laid' : LaysOut more others) :
    LaysOut (tokens ++ more) (chars ++ others) := by
  induction laid with
  | blank isBlank => exact laid'.prepend isBlank
  | token isBlank _ ih =>
      rw [List.append_assoc, List.append_assoc]
      exact .token isBlank ih

theorem single (token : Token) : LaysOut [token] token := by
  have laid : LaysOut [token] ([] ++ (token ++ [])) :=
    .token isBlank_nil (.blank isBlank_nil)
  rwa [List.nil_append, List.append_nil] at laid

/-- Tokens, each behind blanks of its own, and blanks behind the last one. -/
theorem flatMap {parts : List (List Char × Token)} {last : List Char}
    (blanks : ∀ part ∈ parts, IsBlank part.1) (isBlank : IsBlank last) :
    LaysOut (parts.map Prod.snd) (parts.flatMap (fun part => part.1 ++ part.2) ++ last) := by
  induction parts with
  | nil => exact .blank isBlank
  | cons part parts ih =>
      rw [List.forall_mem_cons] at blanks
      rw [List.flatMap_cons, List.append_assoc, List.append_assoc]
      exact .token blanks.1 (ih blanks.2)

end LaysOut

/-- The tokens of items with commas between them. -/
def commaTokens (items : List (List Token)) : List Token :=
  [[',']].intercalate items

/-- The tokens of items with commas between them and brackets around them. -/
def enclosedTokens (opening closing : Char) (items : List (List Token)) : List Token :=
  [opening] :: (commaTokens items ++ [[closing]])

theorem commaTokens_cons (item : List Token) (rest : List (List Token)) :
    commaTokens (item :: rest) = item ++ rest.flatMap ([','] :: ·) := by
  induction rest generalizing item with
  | nil => rw [commaTokens, List.intercalate_singleton, List.flatMap_nil, List.append_nil]
  | cons next rest ih =>
      rw [commaTokens, List.intercalate_cons_cons, List.append_assoc, ← commaTokens, ih,
        List.flatMap_cons, List.singleton_append, List.cons_append]

/-- Tokens behind a comma, unless nothing precedes them. -/
def behindComma : Bool → List Token → List Token
  | true, tokens => tokens
  | false, tokens => [','] :: tokens

/-- The tokens of the items that are left, the first of them behind a comma unless it is the first
of all. -/
def remainingTokens : Bool → List (List Token) → List Token
  | true, items => commaTokens items
  | false, items => items.flatMap ([','] :: ·)

@[simp] theorem remainingTokens_nil (isFirst : Bool) : remainingTokens isFirst [] = [] := by
  cases isFirst <;> rfl

theorem remainingTokens_cons (isFirst : Bool) (item : List Token) (items : List (List Token)) :
    remainingTokens isFirst (item :: items)
      = behindComma isFirst item ++ remainingTokens false items := by
  cases isFirst with
  | false => rw [remainingTokens, List.flatMap_cons, behindComma, remainingTokens]
  | true => rw [remainingTokens, commaTokens_cons, behindComma, remainingTokens]

/-- Separated layouts of items, with any blanks behind the commas, lay out the items. -/
theorem LaysOut.separated {items : List (List Token)} {texts : List (List Char)}
    {blanks : List Char} (isBlank : IsBlank blanks) (laid : List.Forall₂ LaysOut items texts) :
    LaysOut (commaTokens items) (Json.separated (',' :: blanks) texts) := by
  have comma : LaysOut [[',']] (',' :: blanks) := (single [',']).append (.blank isBlank)
  induction laid with
  | nil => exact .blank isBlank_nil
  | @cons item text rest texts laid others ih =>
      cases others with
      | nil => rwa [commaTokens, Json.separated, List.intercalate_singleton,
          List.intercalate_singleton]
      | cons next others =>
          rw [commaTokens, Json.separated, List.intercalate_cons_cons,
            List.intercalate_cons_cons]
          exact (laid.append comma).append ih

namespace Value

mutual

/-- The tokens of a value. -/
def tokens : Value → List Token
  | .null => ["null".toList]
  | .flag true => ["true".toList]
  | .flag false => ["false".toList]
  | .text value => [quoted value]
  | .list items => enclosedTokens '[' ']' (itemTokens items)
  | .object fields => enclosedTokens '\x7b' '\x7d' (fieldTokens fields)

/-- The tokens of each item of an array. -/
def itemTokens : List Value → List (List Token)
  | [] => []
  | item :: rest => tokens item :: itemTokens rest

/-- The tokens of each field of an object. -/
def fieldTokens : List (String × Value) → List (List Token)
  | [] => []
  | (name, value) :: rest => (quoted name :: [':'] :: tokens value) :: fieldTokens rest

end

theorem laysOut_field (name : String) {value : Value} {blanks chars : List Char}
    (isBlank : IsBlank blanks) (laid : LaysOut value.tokens chars) :
    LaysOut (quoted name :: [':'] :: value.tokens) (quoted name ++ ':' :: (blanks ++ chars)) :=
  (LaysOut.single (quoted name)).append ((LaysOut.single [':']).append (laid.prepend isBlank))

mutual

/-- The compact layout. -/
theorem laysOut_compactChars : ∀ value : Value, LaysOut value.tokens value.compactChars
  | .null => .single _
  | .flag true => .single _
  | .flag false => .single _
  | .text value => .single (quoted value)
  | .list items =>
      (LaysOut.single ['[']).append
        ((LaysOut.separated isBlank_nil (laysOut_compactItems items)).append
          (.single [']']))
  | .object fields =>
      (LaysOut.single ['\x7b']).append
        ((LaysOut.separated isBlank_nil (laysOut_compactFields fields)).append
          (.single ['\x7d']))

/-- The items of an array in the compact layout. -/
theorem laysOut_compactItems : ∀ items : List Value,
    List.Forall₂ LaysOut (itemTokens items) (compactItems items)
  | [] => .nil
  | item :: rest => .cons (laysOut_compactChars item) (laysOut_compactItems rest)

/-- The fields of an object in the compact layout. -/
theorem laysOut_compactFields : ∀ fields : List (String × Value),
    List.Forall₂ LaysOut (fieldTokens fields) (compactFields fields)
  | [] => .nil
  | (name, value) :: rest =>
      .cons (laysOut_field name isBlank_nil (laysOut_compactChars value))
        (laysOut_compactFields rest)

end

theorem isBlank_lineBreak (level : Nat) : IsBlank (lineBreak level) := by
  refine List.forall_mem_cons.2 ⟨rfl, ?_⟩
  intro char member
  rw [List.eq_of_mem_replicate member]
  rfl

/-- Bracketed layouts of items lay out the items in their brackets. -/
theorem laysOut_bracketed (level : Nat) (opening closing : Char) {items : List (List Token)}
    {texts : List (List Char)} (laid : List.Forall₂ LaysOut items texts) :
    LaysOut (enclosedTokens opening closing items) (bracketed level opening closing texts) := by
  have first : LaysOut [[opening]] [opening] := .single _
  have last : LaysOut [[closing]] [closing] := .single _
  cases laid with
  | nil => exact first.append last
  | cons laid others =>
      have inner := LaysOut.separated (isBlank_lineBreak (level + 1)) (.cons laid others)
      have lines := (inner.prepend (isBlank_lineBreak (level + 1))).append
        (last.prepend (isBlank_lineBreak level))
      have whole := first.append lines
      simpa [bracketed, enclosedTokens] using whole

mutual

/-- The indented layout at any level. -/
theorem laysOut_indentedChars (level : Nat) : ∀ value : Value,
    LaysOut value.tokens (value.indentedChars level)
  | .null => .single _
  | .flag true => .single _
  | .flag false => .single _
  | .text value => .single (quoted value)
  | .list items => laysOut_bracketed level '[' ']' (laysOut_indentedItems (level + 1) items)
  | .object fields =>
      laysOut_bracketed level '\x7b' '\x7d' (laysOut_indentedFields (level + 1) fields)

/-- The items of an array in the indented layout. -/
theorem laysOut_indentedItems (level : Nat) : ∀ items : List Value,
    List.Forall₂ LaysOut (itemTokens items) (indentedItems level items)
  | [] => .nil
  | item :: rest => .cons (laysOut_indentedChars level item) (laysOut_indentedItems level rest)

/-- The fields of an object in the indented layout. -/
theorem laysOut_indentedFields (level : Nat) : ∀ fields : List (String × Value),
    List.Forall₂ LaysOut (fieldTokens fields) (indentedFields level fields)
  | [] => .nil
  | (name, value) :: rest =>
      .cons (laysOut_field name (show IsBlank [' '] by decide) (laysOut_indentedChars level value))
        (laysOut_indentedFields level rest)

end

end Value

end WordPackage.Json
