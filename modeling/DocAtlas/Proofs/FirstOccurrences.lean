import Mathlib.Data.List.Nodup

/-!
# First occurrences

Edges and tag names are kept once, where they come up first. Keeping first occurrences takes
elements away and leaves nothing twice. It does not matter whether the elements are renamed or
tested before or after, and the order of the elements decides the order of what is kept and nothing
else.
-/

namespace DocAtlas

/-- Keeping first occurrences only takes elements away. -/
theorem eraseDups_sublist {α : Type} [DecidableEq α] : (values : List α) →
    values.eraseDups.Sublist values
  | [] => List.Sublist.refl _
  | first :: rest => by
    have hrest := eraseDups_sublist (rest.filter fun value => !value == first)
    rw [List.eraseDups_cons]
    exact (hrest.trans List.filter_sublist).cons_cons first
termination_by values => values.length
decreasing_by exact Nat.lt_succ_of_le (List.length_filter_le _ rest)

/-- Keeping first occurrences leaves nothing twice. -/
theorem nodup_eraseDups {α : Type} [DecidableEq α] : (values : List α) → values.eraseDups.Nodup
  | [] => List.nodup_nil
  | first :: rest => by
    have hrest := nodup_eraseDups (rest.filter fun value => !value == first)
    rw [List.eraseDups_cons, List.nodup_cons]
    refine ⟨fun hfirst => ?_, hrest⟩
    simp at hfirst
termination_by values => values.length
decreasing_by exact Nat.lt_succ_of_le (List.length_filter_le _ rest)

/-- The first value stays the first one. -/
theorem head?_eraseDups {α : Type} [DecidableEq α] (values : List α) :
    values.eraseDups.head? = values.head? := by
  cases values with
  | nil => rfl
  | cons first rest => rw [List.eraseDups_cons, List.head?_cons, List.head?_cons]

/-- A further element is kept if it did not occur before. -/
theorem eraseDups_concat {α : Type} [DecidableEq α] (values : List α) (last : α) :
    (values ++ [last]).eraseDups =
      if last ∈ values then values.eraseDups else values.eraseDups ++ [last] := by
  rw [List.eraseDups_append]
  by_cases h : last ∈ values
  · have hknown : [last].removeAll values = [] := by simpa [List.removeAll] using h
    rw [if_pos h, hknown, List.eraseDups_nil, List.append_nil]
  · have hnew : [last].removeAll values = [last] := by simpa [List.removeAll] using h
    rw [if_neg h, hnew]
    rfl

/-- Keeping first occurrences and keeping the elements that pass a test can be done in any order. -/
theorem eraseDups_filter {α : Type} [DecidableEq α] (p : α → Bool) : (values : List α) →
    (values.filter p).eraseDups = values.eraseDups.filter p
  | [] => rfl
  | first :: rest => by
    have hrest := eraseDups_filter p (rest.filter fun value => !value == first)
    rw [List.filter_comm] at hrest
    by_cases hfirst : p first = true
    · rw [List.filter_cons_of_pos hfirst, List.eraseDups_cons, List.eraseDups_cons,
        List.filter_cons_of_pos hfirst, hrest]
    · have hother : (rest.filter p).filter (fun value => !value == first) = rest.filter p := by
        rw [List.filter_eq_self]
        intro value hvalue
        have hne : value ≠ first := fun heq => hfirst (heq ▸ (List.mem_filter.mp hvalue).2)
        simp [hne]
      rw [hother] at hrest
      rw [List.filter_cons_of_neg hfirst, List.eraseDups_cons, List.filter_cons_of_neg hfirst,
        hrest]
termination_by values => values.length
decreasing_by exact Nat.lt_succ_of_le (List.length_filter_le _ rest)

/-- First occurrences stay first occurrences when the elements are renamed apart. -/
theorem eraseDups_map {α β : Type} [DecidableEq α] [DecidableEq β] {f : α → β} :
    {values : List α} → (∀ a ∈ values, ∀ b ∈ values, f a = f b → a = b) →
      (values.map f).eraseDups = values.eraseDups.map f
  | [], _ => rfl
  | first :: rest, h => by
    have hfilter : (rest.map f).filter (fun value => !value == f first) =
        (rest.filter fun value => !value == first).map f := by
      rw [List.filter_map]
      refine congrArg (List.map f) (List.filter_congr fun value hvalue => ?_)
      have hiff : f value = f first ↔ value = first :=
        ⟨h value (List.mem_cons_of_mem _ hvalue) first List.mem_cons_self, congrArg f⟩
      simp [hiff]
    have hrest : ∀ a ∈ rest.filter (fun value => !value == first),
        ∀ b ∈ rest.filter (fun value => !value == first), f a = f b → a = b := by
      intro a ha b hb
      exact h a (List.mem_cons_of_mem _ (List.mem_filter.mp ha).1) b
        (List.mem_cons_of_mem _ (List.mem_filter.mp hb).1)
    rw [List.map_cons, List.eraseDups_cons, List.eraseDups_cons, hfilter, eraseDups_map hrest,
      List.map_cons]
termination_by values => values.length
decreasing_by exact Nat.lt_succ_of_le (List.length_filter_le _ rest)

/-- Of the same elements the same ones are kept, whatever their order. -/
theorem eraseDups_perm {α : Type} [DecidableEq α] {first second : List α}
    (h : first.Perm second) : first.eraseDups.Perm second.eraseDups := by
  rw [List.perm_ext_iff_of_nodup (nodup_eraseDups first) (nodup_eraseDups second)]
  intro value
  rw [List.mem_eraseDups, List.mem_eraseDups, h.mem_iff]

end DocAtlas
