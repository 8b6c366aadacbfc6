/-!
# Assignments

Values assigned to keys, kept in the order in which each key was first
assigned. Assigning a key again replaces its value in place. Attributes of an
element, overrides of a manifest and optional parts of a package are kept so.
-/

namespace WordPackage

/-- Pairs of key and value in the order of first assignment. -/
abbrev Assignments (κ α : Type) := List (κ × α)

namespace Assignments

variable {κ α : Type} [DecidableEq κ]

/-- Assign a value to a key: in place if the key is present, else at the end. -/
def set (key : κ) (value : α) : Assignments κ α → Assignments κ α
  | [] => [(key, value)]
  | pair :: rest =>
      if pair.1 = key then (key, value) :: rest else pair :: set key value rest

def get? (key : κ) : Assignments κ α → Option α
  | [] => none
  | pair :: rest => if pair.1 = key then some pair.2 else get? key rest

/-- The keys in order of first assignment. -/
def keys (pairs : Assignments κ α) : List κ :=
  pairs.map Prod.fst

/-- The assignments of a list of pairs, made one after another. -/
def ofList (pairs : List (κ × α)) : Assignments κ α :=
  pairs.foldl (fun assigned pair => set pair.1 pair.2 assigned) []

/-- After an assignment the key has the new value and every other key its old one. -/
theorem get?_set (key other : κ) (value : α) (pairs : Assignments κ α) :
    get? other (set key value pairs) = if key = other then some value else get? other pairs := by
  induction pairs with
  | nil => by_cases same : key = other <;> simp [set, get?, same]
  | cons pair rest ih =>
      by_cases here : pair.1 = key
      · by_cases same : key = other <;> simp [set, get?, here, same]
      · by_cases found : pair.1 = other
        · subst found
          simp [set, get?, here, Ne.symm here]
        · simp [set, get?, here, found, ih]

theorem get?_isSome_iff (key : κ) (pairs : Assignments κ α) :
    (get? key pairs).isSome ↔ key ∈ keys pairs := by
  induction pairs with
  | nil => simp [get?, keys]
  | cons pair rest ih =>
      by_cases here : pair.1 = key
      · simp [get?, keys, here]
      · simpa [get?, keys, here, Ne.symm here] using ih

/-- Assignment keeps the keys, and adds a new key at the end. -/
theorem keys_set (key : κ) (value : α) (pairs : Assignments κ α) :
    keys (set key value pairs) =
      if key ∈ keys pairs then keys pairs else keys pairs ++ [key] := by
  induction pairs with
  | nil => simp [set, keys]
  | cons pair rest ih =>
      by_cases here : pair.1 = key
      · simp [set, keys, here]
      · have apart : key ≠ pair.1 := Ne.symm here
        have step : keys (pair :: rest) = pair.1 :: keys rest := rfl
        rw [set, if_neg here, step]
        show pair.1 :: keys (set key value rest) = _
        by_cases found : key ∈ keys rest
        · simp [ih, found]
        · simp [ih, found, apart]

end Assignments

end WordPackage
