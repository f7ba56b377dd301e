/-!
# Keyed lists

A keyed list holds values under names, in the order in which the names came up. Putting a value
under a known name replaces the old value in its place, so that a name stands only once. Names are
of any type with decidable equality.
-/

namespace DocAtlas.Keyed

variable {κ α : Type} [DecidableEq κ]

/-- Put a value under a name: in the place of the name if it is known, at the end otherwise. -/
def put (name : κ) (value : α) : List (κ × α) → List (κ × α)
  | [] => [(name, value)]
  | (known, old) :: rest =>
    if known = name then (known, value) :: rest else (known, old) :: put name value rest

/-- The keyed list of pairs that come one after the other. -/
def ofPairs (pairs : List (κ × α)) : List (κ × α) :=
  pairs.foldl (fun found (name, value) => put name value found) []

/-- A name that was put is found with its new value. -/
theorem lookup_put_self (name : κ) (value : α) (found : List (κ × α)) :
    (put name value found).lookup name = some value := by
  induction found with
  | nil => simp [put]
  | cons first rest ih =>
    obtain ⟨known, old⟩ := first
    by_cases h : known = name
    · simp [put, h]
    · have hne : (name == known) = false := beq_false_of_ne (Ne.symm h)
      simp [put, h, List.lookup_cons, hne, ih]

/-- What stands under the other names does not change. -/
theorem lookup_put_of_ne {name other : κ} (h : other ≠ name) (value : α)
    (found : List (κ × α)) : (put name value found).lookup other = found.lookup other := by
  have hne : (other == name) = false := beq_false_of_ne h
  induction found with
  | nil => simp [put, List.lookup_cons, hne]
  | cons first rest ih =>
    obtain ⟨known, old⟩ := first
    by_cases hknown : known = name
    · simp [put, hknown, List.lookup_cons, hne]
    · simp [put, hknown, List.lookup_cons, ih]

end DocAtlas.Keyed
