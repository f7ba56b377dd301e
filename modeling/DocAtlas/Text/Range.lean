/-!
# Code point ranges

Character classes are given by ascending tables of closed code point ranges. Membership stops at
the first range that begins after the code point.
-/

namespace DocAtlas.Text

/-- Does a code point lie in one of the ranges of an ascending table? -/
def inRanges : List (Nat × Nat) → Nat → Bool
  | [], _ => false
  | (first, last) :: rest, n =>
    if n < first then false else if n ≤ last then true else inRanges rest n

/-- Is a table ascending: every range non-empty and before the next one? -/
def ascending : List (Nat × Nat) → Bool
  | [] => true
  | [(first, last)] => first ≤ last
  | (first, last) :: (next, stop) :: rest =>
    first ≤ last && last < next && ascending ((next, stop) :: rest)

/-- Without its first range an ascending table is still ascending. -/
theorem ascending_tail {range : Nat × Nat} {rest : List (Nat × Nat)}
    (h : ascending (range :: rest) = true) : ascending rest = true := by
  cases rest with
  | nil => rfl
  | cons next rest =>
    simp only [ascending, Bool.and_eq_true] at h
    exact h.2

/-- In an ascending table all later ranges begin after the first one ends. -/
theorem ascending_lt {range : Nat × Nat} {rest : List (Nat × Nat)}
    (h : ascending (range :: rest) = true) : ∀ r ∈ rest, range.2 < r.1 := by
  induction rest generalizing range with
  | nil => simp
  | cons next rest ih =>
    have htail := ascending_tail h
    simp only [ascending, Bool.and_eq_true, decide_eq_true_eq] at h
    have hnext : next.1 ≤ next.2 := by
      cases rest with
      | nil => simpa [ascending] using htail
      | cons _ _ =>
        simp only [ascending, Bool.and_eq_true, decide_eq_true_eq] at htail
        exact htail.1.1
    intro r hr
    rcases List.mem_cons.mp hr with rfl | hr
    · exact h.1.2
    · have := ih htail r hr
      omega

/-- Membership in an ascending table is membership in one of its ranges. -/
theorem inRanges_iff {table : List (Nat × Nat)} (h : ascending table = true) (n : Nat) :
    inRanges table n = true ↔ ∃ r ∈ table, r.1 ≤ n ∧ n ≤ r.2 := by
  induction table with
  | nil => simp [inRanges]
  | cons range rest ih =>
    have hlt := ascending_lt h
    have ih := ih (ascending_tail h)
    have hrange : range.1 ≤ range.2 := by
      cases rest with
      | nil => simpa [ascending] using h
      | cons _ _ =>
        simp only [ascending, Bool.and_eq_true, decide_eq_true_eq] at h
        exact h.1.1
    simp only [inRanges, List.mem_cons, exists_eq_or_imp]
    split
    · simp only [Bool.false_eq_true, false_iff, not_or, not_and, not_exists]
      refine ⟨fun _ => by omega, fun r hr _ => ?_⟩
      have := hlt r hr
      omega
    · split
      · simp only [true_iff]
        exact Or.inl ⟨by omega, by omega⟩
      · rw [ih]
        constructor
        · exact Or.inr
        · rintro (⟨_, _⟩ | h)
          · omega
          · exact h

end DocAtlas.Text
