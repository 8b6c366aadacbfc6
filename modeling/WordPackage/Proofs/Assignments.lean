import Mathlib.Data.List.Forall2
import Mathlib.Data.List.Induction
import Mathlib.Data.List.Nodup
import Mathlib.Tactic.Choose
import WordPackage.Assignments

/-!
# Assignments made one after another

After a sequence of assignments the keys stand in the order of their first
occurrence, each once, and a key has the value that it was assigned last. Pairs
with distinct keys are their own assignments.
-/

namespace WordPackage.Assignments

variable {κ α : Type} [DecidableEq κ]

/-- The assignments after further ones are made one after another. -/
def setAll (assigned : Assignments κ α) (pairs : List (κ × α)) : Assignments κ α :=
  pairs.foldl (fun assigned pair => set pair.1 pair.2 assigned) assigned

theorem ofList_eq_setAll (pairs : List (κ × α)) : ofList pairs = setAll [] pairs := rfl

@[simp] theorem setAll_nil (assigned : Assignments κ α) : setAll assigned [] = assigned := rfl

@[simp] theorem setAll_cons (assigned : Assignments κ α) (pair : κ × α) (pairs : List (κ × α)) :
    setAll assigned (pair :: pairs) = setAll (set pair.1 pair.2 assigned) pairs := rfl

theorem setAll_append (assigned : Assignments κ α) (front back : List (κ × α)) :
    setAll assigned (front ++ back) = setAll (setAll assigned front) back :=
  List.foldl_append

/-- Keys that were assigned keep their places; the others follow in the order of their first
occurrence. -/
theorem keys_setAll (assigned : Assignments κ α) (pairs : List (κ × α)) :
    keys (setAll assigned pairs)
      = keys assigned ++ ((pairs.map Prod.fst).removeAll (keys assigned)).eraseDups := by
  induction pairs generalizing assigned with
  | nil => simp [List.removeAll]
  | cons pair rest ih =>
      rw [setAll_cons, ih, keys_set, List.map_cons]
      by_cases known : pair.1 ∈ keys assigned
      · simp [known, List.removeAll]
      · rw [if_neg known, List.append_assoc]
        congr 1
        have first : (pair.1 :: rest.map Prod.fst).removeAll (keys assigned)
            = pair.1 :: (rest.map Prod.fst).removeAll (keys assigned) := by
          simp [List.removeAll, known]
        rw [first, List.eraseDups_cons, List.singleton_append]
        congr 2
        rw [List.removeAll, List.removeAll, List.filter_filter]
        refine List.filter_congr fun key _ => ?_
        rw [List.elem_eq_contains, List.elem_eq_contains, List.contains_append, Bool.not_or,
          Bool.and_comm, List.contains_cons, List.contains_nil, Bool.or_false]

theorem keys_ofList (pairs : List (κ × α)) :
    keys (ofList pairs) = (pairs.map Prod.fst).eraseDups := by
  have all : (pairs.map Prod.fst).removeAll [] = pairs.map Prod.fst :=
    List.filter_eq_self.2 fun _ _ => rfl
  rw [ofList_eq_setAll, keys_setAll, keys, List.map_nil, all, List.nil_append]

/-- A key has the value that it was assigned last, else the one it had before. -/
theorem get?_setAll (key : κ) (assigned : Assignments κ α) (pairs : List (κ × α)) :
    get? key (setAll assigned pairs)
      = (pairs.reverse.lookup key).or (get? key assigned) := by
  induction pairs generalizing assigned with
  | nil => simp
  | cons pair rest ih =>
      obtain ⟨first, value⟩ := pair
      rw [setAll_cons, ih, get?_set, List.reverse_cons, List.lookup_append, Option.or_assoc]
      congr 1
      by_cases same : first = key
      · simp [same]
      · have apart : (key == first) = false := beq_eq_false_iff_ne.2 (Ne.symm same)
        simp [same, List.lookup_cons, apart]

theorem get?_ofList (key : κ) (pairs : List (κ × α)) :
    get? key (ofList pairs) = pairs.reverse.lookup key := by
  rw [ofList_eq_setAll, get?_setAll, get?, Option.or_none]

theorem set_of_notMem {key : κ} {assigned : Assignments κ α} (new : key ∉ keys assigned)
    (value : α) : set key value assigned = assigned ++ [(key, value)] := by
  induction assigned with
  | nil => rfl
  | cons pair rest ih =>
      rw [keys, List.map_cons, List.mem_cons, not_or] at new
      rw [set, if_neg (Ne.symm new.1), ih new.2, List.cons_append]

theorem set_map {β : Type} (change : α → β) (key : κ) (value : α) (pairs : Assignments κ α) :
    set key (change value) (pairs.map fun pair => (pair.1, change pair.2))
      = (set key value pairs).map fun pair => (pair.1, change pair.2) := by
  induction pairs with
  | nil => rfl
  | cons pair rest ih =>
      by_cases here : pair.1 = key
      · simp [set, here]
      · simp [set, here, ih]

/-- Changed values are assigned as the values themselves. -/
theorem ofList_map {β : Type} (change : α → β) (pairs : List (κ × α)) :
    ofList (pairs.map fun pair => (pair.1, change pair.2))
      = (ofList pairs).map fun pair => (pair.1, change pair.2) := by
  induction pairs using List.reverseRecOn with
  | nil => rfl
  | append_singleton earlier pair ih =>
      rw [ofList_eq_setAll] at ih ⊢
      rw [ofList_eq_setAll, List.map_append, setAll_append, setAll_append, ih]
      exact set_map change pair.1 pair.2 _

/-- Pairs with distinct keys are their own assignments. -/
theorem ofList_of_nodup {pairs : List (κ × α)} (distinct : (pairs.map Prod.fst).Nodup) :
    ofList pairs = pairs := by
  have behind : ∀ (pairs : List (κ × α)) (assigned : Assignments κ α),
      (keys assigned ++ pairs.map Prod.fst).Nodup → setAll assigned pairs = assigned ++ pairs := by
    intro pairs
    induction pairs with
    | nil =>
        intro assigned _
        simp
    | cons pair rest ih =>
        intro assigned distinct
        have new : pair.1 ∉ keys assigned := fun known =>
          (List.nodup_append.1 distinct).2.2 pair.1 known pair.1 List.mem_cons_self rfl
        rw [setAll_cons, set_of_notMem new, ih, List.append_assoc, List.singleton_append]
        simpa [keys] using distinct
  exact behind pairs [] (by simpa [keys] using distinct)

/-- Among pairs with distinct keys every key has the value it stands with. -/
theorem get?_of_mem {pairs : Assignments κ α} (distinct : (keys pairs).Nodup) {pair : κ × α}
    (member : pair ∈ pairs) : get? pair.1 pairs = some pair.2 := by
  induction pairs with
  | nil => cases member
  | cons first rest ih =>
      rw [keys, List.map_cons, List.nodup_cons] at distinct
      rcases List.mem_cons.1 member with rfl | later
      · simp [get?]
      · have apart : first.1 ≠ pair.1 := by
          rintro same
          exact distinct.1 (same ▸ List.mem_map_of_mem later)
        rw [get?, if_neg apart]
        exact ih distinct.2 later

theorem get?_append (key : κ) (front back : Assignments κ α) :
    get? key (front ++ back) = (get? key front).or (get? key back) := by
  induction front with
  | nil => rfl
  | cons pair rest ih =>
      by_cases here : pair.1 = key
      · simp [get?, here]
      · simp [get?, here, ih]

/-- Where keys are renamed apart, each has the changed value under its new name. -/
theorem get?_map {ι β : Type} [DecidableEq ι] {rename : κ → ι}
    (apart : Function.Injective rename) (change : α → β) (key : κ) (pairs : Assignments κ α) :
    get? (rename key) (pairs.map fun pair => (rename pair.1, change pair.2))
      = (get? key pairs).map change := by
  induction pairs with
  | nil => rfl
  | cons pair rest ih =>
      by_cases here : pair.1 = key
      · simp [get?, here]
      · have there : rename pair.1 ≠ rename key := fun same => here (apart same)
        rw [List.map_cons, get?, if_neg there, ih, get?, if_neg here]

/-- A value of a key stands with it among the pairs. -/
theorem mem_of_get? {pairs : Assignments κ α} {key : κ} {value : α}
    (found : get? key pairs = some value) : (key, value) ∈ pairs := by
  induction pairs with
  | nil => cases found
  | cons first rest ih =>
      rw [get?] at found
      split at found
      · rename_i same
        obtain rfl := Option.some.inj found
        exact same ▸ List.mem_cons_self
      · exact List.mem_cons_of_mem _ (ih found)

/-- An assignment adds no pair but its own. -/
theorem eq_or_mem_of_mem_set {pairs : Assignments κ α} {key : κ} {value : α} {pair : κ × α}
    (member : pair ∈ set key value pairs) : pair = (key, value) ∨ pair ∈ pairs := by
  induction pairs with
  | nil => exact .inl (List.mem_singleton.1 member)
  | cons first rest ih =>
      rw [set] at member
      split at member
      · rcases List.mem_cons.1 member with rfl | later
        · exact .inl rfl
        · exact .inr (List.mem_cons_of_mem _ later)
      · rcases List.mem_cons.1 member with rfl | later
        · exact .inr List.mem_cons_self
        · exact (ih later).imp_right (List.mem_cons_of_mem _)

/-- A sequence of assignments adds no pairs but its own. -/
theorem mem_or_mem_of_mem_setAll {assigned : Assignments κ α} {pairs : List (κ × α)}
    {pair : κ × α} (member : pair ∈ setAll assigned pairs) : pair ∈ pairs ∨ pair ∈ assigned := by
  induction pairs generalizing assigned with
  | nil => exact .inr member
  | cons first rest ih =>
      rcases ih member with later | earlier
      · exact .inl (List.mem_cons_of_mem _ later)
      · rcases eq_or_mem_of_mem_set earlier with rfl | before
        · exact .inl List.mem_cons_self
        · exact .inr before

/-- Assignments keep the keys distinct. -/
theorem nodup_keys_set {assigned : Assignments κ α} (distinct : (keys assigned).Nodup)
    (key : κ) (value : α) : (keys (set key value assigned)).Nodup := by
  rw [keys_set]
  split
  · exact distinct
  · rename_i new
    exact List.nodup_append.2 ⟨distinct, by simp, by
      rintro other member _ last rfl
      rw [List.mem_singleton] at last
      exact new (last ▸ member)⟩

/-- The keys after an assignment are the earlier ones and the new one. -/
theorem mem_keys_set {assigned : Assignments κ α} {key other : κ} {value : α} :
    other ∈ keys (set key value assigned) ↔ other = key ∨ other ∈ keys assigned := by
  rw [keys_set]
  split
  · rename_i known
    constructor
    · exact .inr
    · rintro (rfl | member)
      · exact known
      · exact member
  · rw [List.mem_append, List.mem_singleton, or_comm]

theorem map_snd_eq_filterMap_keys {pairs : Assignments κ α} (distinct : (keys pairs).Nodup) :
    pairs.map Prod.snd = (keys pairs).filterMap fun key => get? key pairs := by
  have found : ∀ pair ∈ pairs, (get? pair.1 pairs) = some pair.2 := fun _ member =>
    get?_of_mem distinct member
  rw [keys, List.filterMap_map, ← List.filterMap_eq_map]
  exact List.filterMap_congr fun pair member => (found pair member).symm

/-- The value that a key was assigned last stands at a place behind which the key does not occur
again. -/
theorem exists_last_place {pairs : List (κ × α)} {key : κ} {value : α}
    (last : pairs.reverse.lookup key = some value) :
    ∃ place, pairs[place]? = some (key, value) ∧
      key ∉ (pairs.drop (place + 1)).map Prod.fst := by
  induction pairs using List.reverseRecOn with
  | nil => cases last
  | append_singleton earlier pair ih =>
      rw [List.reverse_concat, List.lookup_cons] at last
      by_cases same : key = pair.1
      · refine ⟨earlier.length, ?_, ?_⟩
        · subst same
          obtain rfl : pair.2 = value := by simpa using last
          simp
        · simp
      · rw [beq_eq_false_iff_ne.2 same] at last
        obtain ⟨place, found, unique⟩ := ih last
        have inside : place < earlier.length := (List.getElem?_eq_some_iff.1 found).1
        refine ⟨place, ?_, ?_⟩
        · rw [List.getElem?_append_left inside, found]
        · rw [List.drop_append_of_le_length inside, List.map_append, List.mem_append, not_or]
          exact ⟨unique, by simpa using same⟩

/-- Values that are assigned last stand at different places, behind none of which the key of the
value occurs again. -/
theorem exists_last_places {pairs : List (κ × α)} (distinct : (keys (ofList pairs)).Nodup)
    {values : List α} (listed : values <+: (ofList pairs).map Prod.snd) :
    ∃ places : List Nat, places.Nodup ∧
      List.Forall₂ (fun place value => ∃ key, pairs[place]? = some (key, value) ∧
        key ∉ (pairs.drop (place + 1)).map Prod.fst) places values := by
  have placed : ∀ pair ∈ ofList pairs, ∃ place, pairs[place]? = some pair ∧
      pair.1 ∉ (pairs.drop (place + 1)).map Prod.fst := by
    intro pair member
    apply exists_last_place
    rw [← get?_ofList]
    exact get?_of_mem distinct member
  choose! place found unique using placed
  obtain ⟨count, rfl⟩ : ∃ count, values = ((ofList pairs).take count).map Prod.snd :=
    ⟨values.length, by rw [List.map_take, ← List.prefix_iff_eq_take.1 listed]⟩
  have held : (ofList pairs).take count ⊆ ofList pairs := List.take_subset _ _
  have apart : ((ofList pairs).take count).Nodup :=
    (List.Nodup.of_map _ distinct).sublist (List.take_sublist _ _)
  refine ⟨((ofList pairs).take count).map place, ?_, ?_⟩
  · refine List.Nodup.map_on ?_ apart
    intro left leftMember right rightMember same
    have here := found left (held leftMember)
    rw [same, found right (held rightMember)] at here
    exact (Option.some.inj here).symm
  · rw [List.forall₂_map_left_iff, List.forall₂_map_right_iff, List.forall₂_same]
    intro pair member
    exact ⟨pair.1, found pair (held member), unique pair (held member)⟩

end WordPackage.Assignments
