import Mathlib.Data.List.TakeWhile
import WordPackage.Integrity
import WordPackage.Proofs.Text.Pieces

/-!
# Source directories

The targets of a relationship part are relative to the directory that holds its `_rels`
directory. The directory is looked for as the text before a mark, so that a directory whose name
only ends with `_rels` is taken for the mark as well. Where the innermost directory that ends so
is named `_rels` outright, or none ends so, every target leads from the source directory, and
elsewhere some target does not.
-/

namespace WordPackage

/-- The segments passed after a way, the first one first: an empty segment and `.` stay, `..` goes
up where there is something to leave, and any other segment goes down. -/
def followed : List String → List String → List String
  | passed, [] => passed
  | passed, segment :: way =>
      if segment = "" ∨ segment = "." then followed passed way
      else if segment = ".." then followed passed.dropLast way
      else followed (passed ++ [segment]) way

/-- The directory whose relationships a part holds, from the root: the segments of the part's name
before its last segment `_rels`, and the root where there is none. -/
def sourceDirectory (part : String) : List String :=
  (((Text.segments '/' part).reverse.dropWhile (· != "_rels")).drop 1).reverse

/-- The way from the root to a target of a part. A target with a leading slash starts from the root
and another one from the source directory. -/
def wayTo (part target : String) : List String :=
  if target.toList.head? = some '/' then Text.segments '/' target
  else sourceDirectory part ++ Text.segments '/' target

/-- Following a way is passing its segments. -/
theorem followed_eq (passed way : List String) :
    followed passed way = (way.foldl passSegment passed.reverse).reverse := by
  fun_induction followed passed way with
  | case1 passed => rw [List.foldl_nil, List.reverse_reverse]
  | case2 passed segment way stays ih => rw [ih, List.foldl_cons, passSegment, if_pos stays]
  | case3 passed way notStays ih =>
      rw [ih, List.foldl_cons, passSegment, if_neg notStays, if_pos rfl, List.drop_one,
        List.tail_reverse]
  | case4 passed segment way notStays notUp ih =>
      rw [ih, List.foldl_cons, passSegment, if_neg notStays, if_neg notUp, List.reverse_append,
        List.reverse_singleton, List.singleton_append]

theorem resolveTarget_eq (base target : String) :
    resolveTarget base target = Text.joinSegments '/' (followed [] (Text.segments '/'
      (if target.toList.head? = some '/' then .ofList (target.toList.drop 1)
        else base ++ target))) := by
  rw [followed_eq]
  rfl

/-- A target with a leading slash leads from the root, whatever the directory. -/
theorem resolveTarget_of_slash (base : String) {target : String}
    (absolute : target.toList.head? = some '/') :
    resolveTarget base target = Text.joinSegments '/' (followed [] (Text.segments '/' target)) := by
  obtain ⟨rest, chars⟩ := List.head?_eq_some_iff.1 absolute
  have first : Text.segments '/' target = "" :: Text.segments '/' (.ofList rest) := by
    rw [Text.segments, chars, ← List.nil_append ('/' :: rest),
      List.splitOn_append_cons_self_of_not_mem List.not_mem_nil, Text.segments,
      String.toList_ofList]
    rfl
  rw [resolveTarget_eq, if_pos absolute, chars, List.drop_one, List.tail_cons, first, followed,
    if_pos (.inl rfl)]

/-- What has been passed was passed before or stands on the way. -/
theorem mem_of_mem_followed {passed way : List String} {segment : String}
    (member : segment ∈ followed passed way) : segment ∈ passed ∨ segment ∈ way := by
  fun_induction followed passed way with
  | case1 passed => exact .inl member
  | case2 passed other way stays ih =>
      exact (ih member).imp_right (List.mem_cons_of_mem _)
  | case3 passed way notStays ih =>
      exact (ih member).imp (fun inside => List.dropLast_subset _ inside) (List.mem_cons_of_mem _)
  | case4 passed other way notStays notUp ih =>
      rcases ih member with before | later
      · rcases List.mem_append.1 before with earlier | here
        · exact .inl earlier
        · exact .inr (List.mem_singleton.1 here ▸ List.mem_cons_self)
      · exact .inr (List.mem_cons_of_mem _ later)

theorem slash_notMem_followed {way : List String} (clear : ∀ segment ∈ way, '/' ∉ segment.toList) :
    ∀ segment ∈ followed [] way, '/' ∉ segment.toList := by
  intro segment member
  exact clear segment ((mem_of_mem_followed member).resolve_left List.not_mem_nil)

theorem slash_notMem_sourceDirectory {part : String} :
    ∀ segment ∈ sourceDirectory part, '/' ∉ segment.toList := by
  intro segment member
  have inside := List.mem_of_mem_drop (List.mem_reverse.1 member)
  exact Text.separator_notMem_of_mem_segments
    (List.mem_reverse.1 (List.dropWhile_subset _ inside))

theorem followed_concat {segment : String} (notStays : ¬(segment = "" ∨ segment = "."))
    (notUp : segment ≠ "..") (passed way : List String) :
    followed passed (way ++ [segment]) = followed passed way ++ [segment] := by
  rw [followed_eq, followed_eq, List.foldl_append, List.foldl_cons, List.foldl_nil, passSegment,
    if_neg notStays, if_neg notUp, List.reverse_cons]

/-- A segment that ends with `x` leads downward. -/
theorem followed_concat_x (stem : String) (way : List String) :
    followed [] (way ++ [stem ++ "x"]) = followed [] way ++ [stem ++ "x"] := by
  have kept : ∀ segment ∈ ["", ".", ".."], stem ++ "x" ≠ segment := by
    intro segment listed same
    have ends : Text.endsWith segment "x" = true := Text.endsWith_iff.2 ⟨stem, same.symm⟩
    have none : ∀ segment ∈ ["", ".", ".."], Text.endsWith segment "x" = false := by decide
    rw [none segment listed] at ends
    cases ends
  have notStays : ¬(stem ++ "x" = "" ∨ stem ++ "x" = ".") :=
    not_or.2 ⟨kept "" (by decide), kept "." (by decide)⟩
  exact followed_concat notStays (kept ".." (by decide)) [] way

/-- Where the mark in a part's name is: the innermost segment that ends with `_rels`. -/
structure IsMarkedAt (part : String) (above : List String) (stem : String) (below : List String) :
    Prop where
  segments_eq : Text.segments '/' part = above ++ (stem ++ "_rels") :: below
  innermost : ∀ segment ∈ below, Text.endsWith segment "_rels" = false
  isDirectory : below ≠ []

/-- Whether the innermost directory of a part whose name ends with `_rels`, if there is one, is
named so outright. -/
def IsMarkedOutright (part : String) : Prop :=
  (Text.segments '/' part).reverse.find? (Text.endsWith · "_rels") ∈ [none, some "_rels"]

instance (part : String) : Decidable (IsMarkedOutright part) :=
  inferInstanceAs (Decidable (_ ∈ [none, some "_rels"]))

variable {part stem : String} {above below : List String}

theorem endsWith_mark_eq_false (ending : Text.endsWith part ".rels" = true) :
    Text.endsWith part "_rels" = false := by
  rw [← Bool.not_eq_true]
  intro marked
  have dotted : ".rels".toList <:+ part.toList := List.isSuffixOf_iff_suffix.1 ending
  have plain : "_rels".toList <:+ part.toList := List.isSuffixOf_iff_suffix.1 marked
  exact absurd (List.suffix_of_suffix_length_le dotted plain (by decide)) (by decide)

/-- A name is told by its segments, and the mark stands between what is above and below it. -/
theorem eq_of_segments_eq
    (split : Text.segments '/' part = above ++ (stem ++ "_rels") :: below) :
    part = Text.joinSegments '/' (above ++ [stem]) ++ Text.joinSegments '/' ("_rels" :: below) := by
  have clear : ∀ segment ∈ above ++ (stem ++ "_rels") :: below, '/' ∉ segment.toList := by
    intro segment member
    exact Text.separator_notMem_of_mem_segments (split ▸ member)
  obtain ⟨clearAbove, clearBelow⟩ := List.forall_mem_append.1 clear
  have told : Function.Injective (Text.segments '/') := Text.segments_injective
  apply told
  rw [Text.segments_joinSegments_append above stem _ clearAbove, Text.append_joinSegments_cons,
    Text.segments_joinSegments (List.cons_ne_nil _ _) clearBelow, split]

/-- A relationship part has a mark in its name, or no segment of it ends with `_rels`. -/
theorem exists_isMarkedAt (ending : Text.endsWith part ".rels" = true) :
    (∀ segment ∈ Text.segments '/' part, Text.endsWith segment "_rels" = false) ∨
      ∃ above stem below, IsMarkedAt part above stem below := by
  cases found : (Text.segments '/' part).reverse.find? (Text.endsWith · "_rels") with
  | none =>
      refine .inl fun segment member => ?_
      exact Bool.eq_false_iff.2 (List.find?_eq_none.1 found segment (List.mem_reverse.2 member))
  | some segment =>
      obtain ⟨marked, below, above, turned, others⟩ := List.find?_eq_some_iff_append.1 found
      obtain ⟨stem, rfl⟩ := Text.endsWith_iff.1 marked
      have split : Text.segments '/' part =
          above.reverse ++ (stem ++ "_rels") :: below.reverse := by
        rw [← List.reverse_reverse (Text.segments '/' part), turned]
        simp
      refine .inr ⟨above.reverse, stem, below.reverse, split, ?_, ?_⟩
      · intro segment member
        exact Bool.not_eq_true' _ ▸ others segment (List.mem_reverse.1 member)
      · -- Were it the last segment, the name would end with `_rels`.
        intro last
        have whole := eq_of_segments_eq split
        rw [last] at whole
        have marks : Text.endsWith part "_rels" = true := Text.endsWith_iff.2 ⟨_, whole⟩
        rw [endsWith_mark_eq_false ending] at marks
        cases marks

/-- Where no segment ends with `_rels`, the targets of a part are relative to the root. -/
theorem baseDirectory_of_unmarked
    (unmarked : ∀ segment ∈ Text.segments '/' part, Text.endsWith segment "_rels" = false) :
    baseDirectory part = "" := by
  have absent : ¬"_rels/".toList <:+: part.toList := by
    intro occurs
    have mark : "_rels".toList ++ ['/'] <:+: part.toList := occurs
    obtain ⟨segment, member, marked⟩ := Text.exists_segment_endsWith "_rels" (by decide) mark
    rw [unmarked segment member] at marked
    cases marked
  rw [baseDirectory, Text.beforeLastMark_of_notInfix absent]
  rfl

namespace IsMarkedAt

/-- No segment of a name has a slash, and the stem of its mark has none. -/
theorem slash_notMem (marked : IsMarkedAt part above stem below) :
    (∀ segment ∈ above, '/' ∉ segment.toList) ∧ '/' ∉ stem.toList ∧
      ∀ segment ∈ below, '/' ∉ segment.toList := by
  have clear : ∀ segment ∈ above ++ (stem ++ "_rels") :: below, '/' ∉ segment.toList := by
    intro segment member
    exact Text.separator_notMem_of_mem_segments (marked.segments_eq ▸ member)
  obtain ⟨clearAbove, clearBelow⟩ := List.forall_mem_append.1 clear
  obtain ⟨clearMark, clearBelow⟩ := List.forall_mem_cons.1 clearBelow
  refine ⟨clearAbove, fun member => clearMark ?_, clearBelow⟩
  rw [String.toList_append]
  exact List.mem_append_left _ member

/-- The name up to its mark is taken for the directory. -/
theorem baseDirectory_eq (marked : IsMarkedAt part above stem below) :
    baseDirectory part = Text.joinSegments '/' (above ++ [stem]) := by
  obtain ⟨-, -, clear⟩ := marked.slash_notMem
  have behind : Text.segments '/' ("rels" ++ .ofList ['/'] ++ Text.joinSegments '/' below) =
      "rels" :: below := by
    rw [Text.segments_append_separator (by decide),
      Text.segments_joinSegments marked.isDirectory clear]
  -- A later mark would end a segment below the innermost marked one.
  have last : ¬ '_' :: "rels/".toList <:+:
      "rels/".toList ++ (Text.joinSegments '/' below).toList := by
    intro occurs
    have inside : "_rels".toList ++ ['/'] <:+:
        ("rels" ++ .ofList ['/'] ++ Text.joinSegments '/' below).toList := by
      rw [String.toList_append]
      exact occurs
    obtain ⟨segment, member, marks⟩ := Text.exists_segment_endsWith "_rels" (by decide) inside
    rw [behind] at member
    rcases List.mem_cons.1 member with rfl | later
    · exact absurd marks (by decide)
    · rw [marked.innermost segment later] at marks
      cases marks
  have name : part.toList = (Text.joinSegments '/' (above ++ [stem])).toList ++
      '_' :: "rels/".toList ++ (Text.joinSegments '/' below).toList := by
    rw [eq_of_segments_eq marked.segments_eq, Text.joinSegments_cons _ marked.isDirectory,
      String.toList_append, String.toList_append, List.append_assoc]
    rfl
  have found := Text.beforeLastMark_append (Text.joinSegments '/' (above ++ [stem])).toList last
  rw [← name] at found
  show String.ofList ((Text.beforeLastMark ('_' :: "rels/".toList) part.toList).getD []) = _
  rw [found, Option.getD_some, String.ofList_toList]

theorem resolveTarget_eq (marked : IsMarkedAt part above stem below) {target : String}
    (relative : target.toList.head? ≠ some '/') :
    resolveTarget (baseDirectory part) target =
      Text.joinSegments '/' (followed [] (above ++ Text.segments '/' (stem ++ target))) := by
  rw [WordPackage.resolveTarget_eq, if_neg relative, marked.baseDirectory_eq,
    Text.segments_joinSegments_append above stem target marked.slash_notMem.1]

/-- A mark that is a whole segment names the source directory. -/
theorem sourceDirectory_eq (marked : IsMarkedAt part above "" below) :
    sourceDirectory part = above := by
  have others : ∀ segment ∈ below.reverse, (segment != "_rels") = true := by
    intro segment member
    refine bne_iff_ne.2 ?_
    rintro rfl
    exact absurd (marked.innermost _ (List.mem_reverse.1 member)) (by decide)
  have split := marked.segments_eq
  rw [String.empty_append] at split
  rw [sourceDirectory, split, List.reverse_append, List.reverse_cons, List.append_assoc,
    List.dropWhile_append_of_pos others]
  simp

/-- The mark of a name is the innermost segment that ends with `_rels`. -/
theorem isMarkedOutright_iff (marked : IsMarkedAt part above stem below) :
    IsMarkedOutright part ↔ stem = "" := by
  have others : below.reverse.find? (Text.endsWith · "_rels") = none := by
    refine List.find?_eq_none.2 fun segment member => ?_
    exact Bool.eq_false_iff.1 (marked.innermost segment (List.mem_reverse.1 member))
  have first : (Text.segments '/' part).reverse.find? (Text.endsWith · "_rels") =
      some (stem ++ "_rels") := by
    rw [marked.segments_eq, List.reverse_append, List.reverse_cons, List.append_assoc,
      List.find?_append, others, Option.none_or, List.singleton_append]
    exact List.find?_cons_of_pos (Text.endsWith_iff.2 ⟨stem, rfl⟩)
  rw [IsMarkedOutright, first]
  constructor
  · intro outright
    simpa using outright
  · rintro rfl
    decide

/-- Where the mark is not a whole segment, the target `x` leads elsewhere than it should. -/
theorem resolveTarget_ne (marked : IsMarkedAt part above stem below) (other : stem ≠ "") :
    resolveTarget (baseDirectory part) "x" ≠
      Text.joinSegments '/' (followed [] (wayTo part "x")) := by
  obtain ⟨clearAbove, clearStem, -⟩ := marked.slash_notMem
  have clearName : '/' ∉ (stem ++ "x").toList := by
    rw [String.toList_append]
    exact fun member => (List.mem_append.1 member).elim clearStem (by decide)
  have plain := followed_concat_x "" (sourceDirectory part)
  rw [String.empty_append] at plain
  intro same
  rw [marked.resolveTarget_eq (by decide), Text.segments_of_notMem clearName, wayTo,
    if_neg (by decide), Text.segments_of_notMem (by decide), followed_concat_x, plain] at same
  have lists := Text.joinSegments_inj (List.concat_ne_nil _ _) (List.concat_ne_nil _ _)
    (List.forall_mem_append.2
      ⟨slash_notMem_followed clearAbove, List.forall_mem_singleton.2 clearName⟩)
    (List.forall_mem_append.2
      ⟨slash_notMem_followed slash_notMem_sourceDirectory, by decide⟩) same
  exact other (by simpa using List.append_inj_right' lists rfl)

end IsMarkedAt

/-- Where no segment ends with `_rels`, the source directory is the root. -/
theorem sourceDirectory_of_unmarked
    (unmarked : ∀ segment ∈ Text.segments '/' part, Text.endsWith segment "_rels" = false) :
    sourceDirectory part = [] := by
  have others : ∀ segment ∈ (Text.segments '/' part).reverse, (segment != "_rels") = true := by
    intro segment member
    refine bne_iff_ne.2 ?_
    rintro rfl
    exact absurd (unmarked _ (List.mem_reverse.1 member)) (by decide)
  rw [sourceDirectory, List.dropWhile_eq_nil_iff.2 others]
  rfl

theorem isMarkedOutright_of_unmarked
    (unmarked : ∀ segment ∈ Text.segments '/' part, Text.endsWith segment "_rels" = false) :
    IsMarkedOutright part := by
  have none : (Text.segments '/' part).reverse.find? (Text.endsWith · "_rels") = none := by
    refine List.find?_eq_none.2 fun segment member => ?_
    exact Bool.eq_false_iff.1 (unmarked segment (List.mem_reverse.1 member))
  rw [IsMarkedOutright, none]
  exact List.mem_cons_self

/-- Every target of a relationship part leads from its source directory exactly when the innermost
directory of the part that ends with `_rels` is named so outright, if there is one. Targets with a
leading slash lead from the root anyway, and another target continues what stands before the mark
in the part's name. -/
theorem resolveTarget_leads_iff (ending : Text.endsWith part ".rels" = true) :
    ((∀ target, resolveTarget (baseDirectory part) target =
        Text.joinSegments '/' (followed [] (wayTo part target))) ↔ IsMarkedOutright part) ∧
    (∀ target, target.toList.head? = some '/' → resolveTarget (baseDirectory part) target =
      Text.joinSegments '/' (followed [] (wayTo part target))) ∧
    ∀ above stem below, IsMarkedAt part above stem below →
      ∀ target, target.toList.head? ≠ some '/' → resolveTarget (baseDirectory part) target =
        Text.joinSegments '/' (followed [] (above ++ Text.segments '/' (stem ++ target))) := by
  have absolute : ∀ target, target.toList.head? = some '/' →
      resolveTarget (baseDirectory part) target =
        Text.joinSegments '/' (followed [] (wayTo part target)) := by
    intro target slash
    rw [resolveTarget_of_slash _ slash, wayTo, if_pos slash]
  refine ⟨?_, absolute, fun above stem below marked target => marked.resolveTarget_eq⟩
  -- Without a marked segment both directories are the root. With one they agree unless something
  -- stands before the mark within its segment, and then the target `x` tells them apart.
  rcases exists_isMarkedAt ending with unmarked | ⟨above, stem, below, marked⟩
  · refine iff_of_true ?_ (isMarkedOutright_of_unmarked unmarked)
    intro target
    by_cases slash : target.toList.head? = some '/'
    · exact absolute target slash
    · rw [resolveTarget_eq, if_neg slash, baseDirectory_of_unmarked unmarked, String.empty_append,
        wayTo, if_neg slash, sourceDirectory_of_unmarked unmarked, List.nil_append]
  · rw [marked.isMarkedOutright_iff]
    constructor
    · intro leads
      by_contra other
      exact marked.resolveTarget_ne other (leads "x")
    · rintro rfl target
      by_cases slash : target.toList.head? = some '/'
      · exact absolute target slash
      · rw [marked.resolveTarget_eq slash, wayTo, if_neg slash, marked.sourceDirectory_eq,
          String.empty_append]

/-- In a part below two directories that end with `_rels`, the inner one of them outright, parent
steps lead upward from the directory that holds it. -/
theorem resolveTarget_leads_nested :
    Text.endsWith "word/old_rels/_rels/a.rels" ".rels" = true ∧
      resolveTarget (baseDirectory "word/old_rels/_rels/a.rels") "../media//./b.png" =
        Text.joinSegments '/'
          (followed [] (wayTo "word/old_rels/_rels/a.rels" "../media//./b.png")) ∧
      Text.joinSegments '/' (followed [] (wayTo "word/old_rels/_rels/a.rels" "../media//./b.png")) =
        "word/media/b.png" :=
  ⟨by decide, (resolveTarget_leads_iff (by decide)).1.2 (by decide) _, by decide⟩

/-- A part in a directory that merely ends with `_rels` has the root as its source directory, and
its targets lead from a directory that is none. -/
theorem resolveTarget_astray :
    Text.endsWith "word/my_rels/x.rels" ".rels" = true ∧
      resolveTarget (baseDirectory "word/my_rels/x.rels") "a.png" ≠
        Text.joinSegments '/' (followed [] (wayTo "word/my_rels/x.rels" "a.png")) ∧
      resolveTarget (baseDirectory "word/my_rels/x.rels") "a.png" = "word/mya.png" ∧
      Text.joinSegments '/' (followed [] (wayTo "word/my_rels/x.rels" "a.png")) = "a.png" := by
  decide

end WordPackage
