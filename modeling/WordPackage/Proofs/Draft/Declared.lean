import WordPackage.Proofs.Draft.Archive
import WordPackage.Proofs.Markup.Declaration

/-!
# Declarations of written parts

Three of the parts that every package has and the optional parts may be supplied. The text
that was supplied last for a part decides how the part is written; parts that are not supplied
are generated. A written part begins with a declaration unless the text supplied for it
looks declared without being so.
-/

namespace WordPackage

/-- The text that an operation supplies and the name of the part it is for. -/
def Operation.suppliedText? : Operation → Option (String × String)
  | .setDocument text => some (PartName.document, text)
  | .setStyles text => some (PartName.styles, text)
  | .setFontTable text => some (PartName.fontTable, text)
  | .setOptionalPart part text => some (part.path, text)
  | _ => none

/-- The text that operations supply last for a part. -/
def lastSupplied? (operations : List Operation) (name : String) : Option String :=
  (operations.filterMap Operation.suppliedText?).reverse.lookup name

/-- One more operation replaces the text of the part that it supplies. -/
theorem lastSupplied?_append (operations : List Operation) (operation : Operation)
    (name : String) :
    lastSupplied? (operations ++ [operation]) name
      = operation.suppliedText?.elim (lastSupplied? operations name) fun supplied =>
          if supplied.1 = name then some supplied.2 else lastSupplied? operations name := by
  cases supplied : operation.suppliedText? with
  | none => simp [lastSupplied?, supplied]
  | some pair =>
      have last : lastSupplied? (operations ++ [operation]) name
          = (pair :: (operations.filterMap Operation.suppliedText?).reverse).lookup name := by
        simp [lastSupplied?, supplied]
      rw [last, List.lookup_cons, Option.elim_some]
      by_cases same : pair.1 = name
      · rw [if_pos same, same, beq_self_eq_true]
      · rw [if_neg same, beq_eq_false_iff_ne.2 (Ne.symm same)]
        rfl

namespace Draft

/-- The text that a draft holds for a part, if the part was supplied. -/
def supplied? (draft : Draft) (name : String) : Option String :=
  if name = PartName.document then draft.document
  else if name = PartName.styles then draft.styles
  else if name = PartName.fontTable then draft.fontTable
  else (OptionalPart.all.find? fun part => part.path = name).bind fun part =>
    Assignments.get? part draft.optionalParts

theorem supplied?_path (draft : Draft) (part : OptionalPart) :
    draft.supplied? part.path = Assignments.get? part draft.optionalParts := by
  have apart : ∀ part ∈ OptionalPart.all, part.path ≠ PartName.document ∧
      part.path ≠ PartName.styles ∧ part.path ≠ PartName.fontTable ∧
        (OptionalPart.all.find? fun other => other.path = part.path) = some part := by
    decide
  obtain ⟨document, styles, fontTable, found⟩ := apart part (OptionalPart.mem_all part)
  rw [supplied?, if_neg document, if_neg styles, if_neg fontTable, found, Option.bind_some]

/-- Supplying an optional part changes the text under its path only. -/
theorem supplied?_setOptionalPart (draft : Draft) (part : OptionalPart) (text name : String) :
    (draft.setOptionalPart part text).2.supplied? name
      = if part.path = name then some text else draft.supplied? name := by
  by_cases same : part.path = name
  · rw [if_pos same, ← same, supplied?_path]
    exact (Assignments.get?_set part part text _).trans (if_pos rfl)
  · rw [if_neg same]
    have kept : ∀ other ∈ OptionalPart.all.find? fun part => part.path = name,
        Assignments.get? other (draft.setOptionalPart part text).2.optionalParts
          = Assignments.get? other draft.optionalParts := by
      intro other found
      have path : other.path = name := by
        have named := List.find?_some (Option.mem_def.1 found)
        exact of_decide_eq_true named
      refine (Assignments.get?_set part other text _).trans (if_neg ?_)
      rintro rfl
      exact same path
    unfold supplied?
    rw [Option.bind_congr kept]
    rfl

/-- An operation replaces the text of the part that it supplies, if it supplies one. -/
theorem supplied?_perform (draft : Draft) (operation : Operation) (name : String) :
    (draft.perform operation).supplied? name
      = operation.suppliedText?.elim (draft.supplied? name) fun supplied =>
          if supplied.1 = name then some supplied.2 else draft.supplied? name := by
  have styles : PartName.styles ≠ PartName.document := by decide
  have fontTable : PartName.fontTable ≠ PartName.document ∧
      PartName.fontTable ≠ PartName.styles := by decide
  cases operation with
  | setMetadata _ | useMimeLookup _ | usePropertyWriter _ | relateDocument _
  | relateFontTable _ => rfl
  | setDocument text | setStyles text | setFontTable text =>
      simp only [perform, setDocument, setStyles, setFontTable, Operation.suppliedText?,
        Option.elim_some, supplied?]
      grind
  | setOptionalPart part text => exact draft.supplied?_setOptionalPart part text name
  | addImage target source =>
      rcases draft.perform_addImage target source with ⟨_, -, -, -, next, -⟩ | ⟨next, -⟩
      · rw [next]
        rfl
      · rw [next]
        rfl
  | addFont target data =>
      rcases draft.perform_addFont target data with ⟨_, -, -, -, next, -⟩ | ⟨next, -⟩
      · rw [next]
        rfl
      · rw [next]
        rfl

theorem supplied?_run (settings : Settings) (operations : List Operation) (name : String) :
    ((ofSettings settings).run operations).supplied? name = lastSupplied? operations name := by
  induction operations using List.reverseRecOn with
  | nil =>
      show (ofSettings settings).supplied? name = none
      simp [supplied?, ofSettings, Assignments.get?]
  | append_singleton earlier operation ih =>
      rw [run_concat, supplied?_perform, lastSupplied?_append, ih]

/-- Every part is a supplied text behind its declaration or a generated document. -/
theorem parts_eq_supplied_or_document {draft : Draft} {now : Instant} {part : String × String}
    (distinct : draft.optionalParts.keys.Nodup) (planned : part ∈ draft.parts now) :
    (∃ text, draft.supplied? part.1 = some text ∧ part.2 = Markup.ensureDeclaration text)
      ∨ draft.supplied? part.1 = none ∧
        ∃ layout element, part.2 = Markup.Element.document layout element := by
  have suppliedOr : ∀ (supplied : Option String) (empty : Markup.Element),
      (∃ text, supplied = some text ∧
        draft.suppliedOr supplied empty = Markup.ensureDeclaration text)
        ∨ supplied = none ∧ ∃ layout element,
          draft.suppliedOr supplied empty = Markup.Element.document layout element := by
    intro supplied empty
    cases supplied with
    | none => exact .inr ⟨rfl, _, _, rfl⟩
    | some text => exact .inl ⟨text, rfl, rfl⟩
  rcases List.mem_append.1 planned with own | optional
  · simp only [List.mem_cons, List.not_mem_nil, or_false] at own
    -- Three of the ten parts may be supplied; the others are always generated.
    rcases own with rfl | rfl | rfl | rfl | rfl | rfl | rfl | rfl | rfl | rfl
    · exact .inr ⟨rfl, _, _, rfl⟩
    · exact .inr ⟨rfl, _, _, rfl⟩
    · exact .inr ⟨rfl, _, _, rfl⟩
    · exact .inr ⟨rfl, _, _, rfl⟩
    · exact .inr ⟨rfl, _, _, rfl⟩
    · exact suppliedOr draft.document _
    · exact suppliedOr draft.styles _
    · exact suppliedOr draft.fontTable _
    · exact .inr ⟨rfl, _, _, rfl⟩
    · exact .inr ⟨rfl, _, _, rfl⟩
  · obtain ⟨supplied, held, rfl⟩ := List.mem_map.1 optional
    refine .inl ⟨supplied.2, ?_, rfl⟩
    rw [supplied?_path]
    exact Assignments.get?_of_mem distinct held

theorem map_fst_parts (draft : Draft) (now : Instant) :
    (draft.parts now).map Prod.fst
      = fixedEntries ++ draft.optionalParts.keys.map OptionalPart.path := by
  simp [parts, fixedEntries, Assignments.keys, Function.comp_def]

/-- How the text that was supplied for a part, if any was, relates to the text that is stored. -/
structure StoresDeclared (supplied : Option String) (stored : String) : Prop where
  begins : Markup.beginsDeclared stored = true
    ↔ ∀ text ∈ supplied, Markup.seemsDeclared text = false
  /-- A supplied text that begins with a declaration or seems to is stored as it is, any other
  behind the standard declaration and a line feed. -/
  unchanged : ∀ text ∈ supplied,
    stored = if Markup.beginsDeclared text || Markup.seemsDeclared text then text
      else Markup.declaration ++ "\n" ++ text

/-- A part of a draft is stored according to what was supplied for it. -/
theorem IsConsistent.storesDeclared {draft : Draft} (consistent : draft.IsConsistent)
    {now : Instant} {part : String × String} (planned : part ∈ draft.parts now) :
    StoresDeclared (draft.supplied? part.1) part.2 := by
  rcases parts_eq_supplied_or_document consistent.parts_distinct planned with
    ⟨text, supplied, stored⟩ | ⟨generated, layout, element, stored⟩
  · rw [supplied, stored]
    constructor
    · simp [Markup.beginsDeclared_ensureDeclaration]
    · rintro other ⟨⟩
      exact Markup.ensureDeclaration_eq text
  · rw [generated, stored]
    constructor
    · simp [Markup.beginsDeclared_document]
    · rintro other ⟨⟩

section Writing

variable {settings : Settings} {operations : List Operation} {now : Instant} {tree : Storage.Tree}
  {sink : Sink} {entries : List Archive.Entry}

/-- The parts that every package has and the optional parts that operations supply are read
according to what was supplied for them last. -/
theorem exists_storesDeclared_of_write
    (succeeds : (((ofSettings settings).run operations).write now tree sink).result
      = .ok entries) {name : String}
    (part : name ∈ fixedEntries ∨
      ∃ kind text, .setOptionalPart kind text ∈ operations ∧ name = kind.path) :
    ∃ stored, (Package.ofEntries entries).readText name = .ok stored ∧
      StoresDeclared (lastSupplied? operations name) stored := by
  have consistent := (IsConsistent.ofSettings settings).run operations
  have named : name ∈ (((ofSettings settings).run operations).parts now).map Prod.fst := by
    rw [map_fst_parts]
    rcases part with own | ⟨kind, text, supplied, rfl⟩
    · exact List.mem_append_left _ own
    · exact List.mem_append_right _ (List.mem_map_of_mem (mem_keys_optionalParts_run supplied))
  obtain ⟨written, planned, rfl⟩ := List.mem_map.1 named
  refine ⟨written.2, consistent.readText_write succeeds planned, ?_⟩
  rw [← supplied?_run settings]
  exact consistent.storesDeclared planned

end Writing

/-- Whatever operations led to a draft, each of the ten parts that every package has and each
optional part that was supplied begins with a declaration exactly if the text supplied for it
last, if there is one, does not merely seem declared. A supplied text that begins with a
declaration or seems to is stored as it is, any other behind the standard declaration and a line
feed; giving a text its declaration again changes nothing. -/
theorem write_storesDeclared (settings : Settings) (operations : List Operation) {now : Instant}
    {tree : Storage.Tree} {sink : Sink} {entries : List Archive.Entry}
    (succeeds : (((ofSettings settings).run operations).write now tree sink).result
      = .ok entries) :
    (∀ name, (name ∈ fixedEntries ∨
        ∃ kind text, .setOptionalPart kind text ∈ operations ∧ name = kind.path) →
      ∃ stored, (Package.ofEntries entries).readText name = .ok stored ∧
        StoresDeclared (lastSupplied? operations name) stored) ∧
      ∀ text, Markup.ensureDeclaration (Markup.ensureDeclaration text)
        = Markup.ensureDeclaration text :=
  ⟨fun _ part => exists_storesDeclared_of_write succeeds part,
    Markup.ensureDeclaration_ensureDeclaration⟩

/-- The main document and the theme are supplied as given. -/
def supplying (document theme : String) : List Operation :=
  [.setDocument document, .setOptionalPart .theme theme]

theorem exists_write_supplying (document theme : String) :
    ∃ entries, (((ofSettings {}).run (supplying document theme)).write
      ⟨0, 0⟩ {} .unrestricted).result = .ok entries := by
  have consistent := (IsConsistent.ofSettings {}).run (supplying document theme)
  apply consistent.exists_write ⟨0, 0⟩ Sink.refuses_unrestricted
  intro image member
  cases member

/-- A document without a declaration and a theme with one are written so that both begin with a
declaration. -/
theorem exists_entries_begin_declared :
    ∃ entries,
      (((ofSettings {}).run (supplying "<w:document/>" "<?xml version=\"1.0\"?><a:theme/>")).write
          ⟨0, 0⟩ {} .unrestricted).result = .ok entries ∧
        ∀ name ∈ [PartName.document, OptionalPart.theme.path],
          ∃ stored, (Package.ofEntries entries).readText name = .ok stored ∧
            Markup.beginsDeclared stored = true := by
  obtain ⟨entries, succeeds⟩ := exists_write_supplying "<w:document/>"
    "<?xml version=\"1.0\"?><a:theme/>"
  refine ⟨entries, succeeds, ?_⟩
  intro name listed
  have part : name ∈ fixedEntries ∨ ∃ kind text, .setOptionalPart kind text
      ∈ supplying "<w:document/>" "<?xml version=\"1.0\"?><a:theme/>" ∧ name = kind.path := by
    simp only [List.mem_cons, List.not_mem_nil, or_false] at listed
    rcases listed with rfl | rfl
    · exact .inl (by decide)
    · exact .inr ⟨.theme, _, List.mem_cons_of_mem _ List.mem_cons_self, rfl⟩
  obtain ⟨stored, reads, stores⟩ := (write_storesDeclared _ _ succeeds).1 name part
  refine ⟨stored, reads, stores.begins.2 ?_⟩
  simp only [List.mem_cons, List.not_mem_nil, or_false] at listed
  rcases listed with rfl | rfl
  · decide
  · decide

/-- A document that begins with a stylesheet instruction is written without a declaration. -/
theorem exists_readText_undeclared :
    ∃ entries,
      (((ofSettings {}).run
          (supplying "<?xml-stylesheet href=\"a\"?><w:document/>" "<a:theme/>")).write
          ⟨0, 0⟩ {} .unrestricted).result = .ok entries ∧
        ∃ stored, (Package.ofEntries entries).readText PartName.document = .ok stored ∧
          Markup.beginsDeclared stored = false := by
  obtain ⟨entries, succeeds⟩ := exists_write_supplying
    "<?xml-stylesheet href=\"a\"?><w:document/>" "<a:theme/>"
  have own : PartName.document ∈ fixedEntries := by decide
  obtain ⟨stored, reads, stores⟩ := exists_storesDeclared_of_write succeeds (.inl own)
  refine ⟨entries, succeeds, stored, reads, ?_⟩
  rw [stores.unchanged "<?xml-stylesheet href=\"a\"?><w:document/>" (by decide)]
  decide

end Draft

end WordPackage
