import Mathlib.Data.List.Infix
import Mathlib.Data.Nat.Find

/-!
# The first mark with something behind it

A text can be cut at each of its marks, and some of the cuts leave something of a wanted form behind
the mark. The one with the shortest lead is found by going through the text from left to right and
stopping at the first mark behind which reading succeeds.
-/

namespace DocAtlas.Text

/-- A text is a lead, a mark and something of a given form. -/
def MarkedAt {α : Type} (mark : Char) (Form : List Char → α → Prop) (lead s : List Char)
    (found : α) : Prop :=
  ∃ rest, s = lead ++ mark :: rest ∧ Form rest found

/-- What follows the first mark with the given form behind it. -/
def FirstMarked {α : Type} (mark : Char) (Form : List Char → α → Prop) (s : List Char)
    (found : α) : Prop :=
  ∃ lead, MarkedAt mark Form lead s found ∧
    ∀ lead' found', MarkedAt mark Form lead' s found' → lead.length ≤ lead'.length

/-- The first reading that succeeds behind a mark. -/
def firstAfter {α : Type} (mark : Char) (read : List Char → Option α) : List Char → Option α
  | [] => none
  | c :: rest =>
    if c = mark then (read rest).or (firstAfter mark read rest) else firstAfter mark read rest

section Search

variable {α : Type} {mark c : Char} {Form : List Char → α → Prop} {read : List Char → Option α}
  {s lead : List Char} {found : α}

/-- The mark is the first character or stands behind it. -/
theorem markedAt_cons_iff :
    MarkedAt mark Form lead (c :: s) found ↔
      (lead = [] ∧ c = mark ∧ Form s found) ∨
        ∃ rest, lead = c :: rest ∧ MarkedAt mark Form rest s found := by
  constructor
  · intro h
    obtain ⟨rest, heq, hform⟩ := h
    cases lead with
    | nil =>
      obtain ⟨rfl, rfl⟩ := List.cons.inj heq
      exact .inl ⟨rfl, rfl, hform⟩
    | cons first lead =>
      obtain ⟨rfl, hrest⟩ := List.cons.inj heq
      exact .inr ⟨lead, rfl, rest, hrest, hform⟩
  · intro h
    obtain ⟨rfl, rfl, hform⟩ | ⟨lead, rfl, rest, rfl, hform⟩ := h
    · exact ⟨s, rfl, hform⟩
    · exact ⟨rest, rfl, hform⟩

/-- A first character with nothing of the form behind it changes nothing. -/
theorem firstMarked_cons_iff (h : c = mark → ∀ found, ¬Form s found) :
    FirstMarked mark Form (c :: s) found ↔ FirstMarked mark Form s found := by
  have hcons {lead : List Char} {found : α} : MarkedAt mark Form lead (c :: s) found ↔
      ∃ rest, lead = c :: rest ∧ MarkedAt mark Form rest s found := by
    rw [markedAt_cons_iff, or_iff_right]
    intro hfirst
    exact h hfirst.2.1 found hfirst.2.2
  constructor
  · intro hmarked
    obtain ⟨_, hat, hshortest⟩ := hmarked
    obtain ⟨lead, rfl, htail⟩ := hcons.mp hat
    refine ⟨lead, htail, fun lead' found' hat' => ?_⟩
    have hle := hshortest (c :: lead') found' (hcons.mpr ⟨lead', rfl, hat'⟩)
    simpa using hle
  · intro hmarked
    obtain ⟨lead, hat, hshortest⟩ := hmarked
    refine ⟨c :: lead, hcons.mpr ⟨lead, rfl, hat⟩, fun lead' found' hat' => ?_⟩
    obtain ⟨rest, rfl, hrest⟩ := hcons.mp hat'
    have hle := hshortest rest found' hrest
    simpa using hle

/-- The search finds what the shortest lead leaves, if it reads what has the form. -/
theorem firstAfter_eq_some_iff
    (hread : ∀ rest, rest <:+ s → ∀ found, read rest = some found ↔ Form rest found) :
    firstAfter mark read s = some found ↔ FirstMarked mark Form s found := by
  induction s with
  | nil => simp [firstAfter, FirstMarked, MarkedAt]
  | cons c s ih =>
    have ih := ih fun rest hrest => hread rest (hrest.trans (List.suffix_cons c s))
    have hs := hread s (List.suffix_cons c s)
    rw [firstAfter]
    by_cases hc : c = mark
    · subst hc
      rw [if_pos rfl]
      cases hfirst : read s with
      | none =>
        rw [Option.none_or, ih, firstMarked_cons_iff]
        intro _ other hform
        exact absurd (hfirst.symm.trans ((hs other).mpr hform)) (by simp)
      | some first =>
        have hform := (hs first).mp hfirst
        rw [Option.some_or]
        constructor
        · intro heq
          obtain rfl := Option.some.inj heq
          exact ⟨[], ⟨s, rfl, hform⟩, fun _ _ _ => Nat.zero_le _⟩
        · intro hmarked
          obtain ⟨lead, ⟨rest, heq, hrest⟩, hshortest⟩ := hmarked
          have hle := hshortest [] first ⟨s, rfl, hform⟩
          obtain rfl := List.eq_nil_of_length_eq_zero (Nat.le_zero.mp hle)
          obtain ⟨_, rfl⟩ := List.cons.inj heq
          rw [← hfirst]
          exact (hs found).mpr hrest
    · rw [if_neg hc, ih, firstMarked_cons_iff fun heq => absurd heq hc]

/-- Where something of the form stands behind a mark, there is a first such place. -/
theorem exists_firstMarked (h : MarkedAt mark Form lead s found) :
    ∃ first, FirstMarked mark Form s first := by
  classical
  have hlengths : ∃ n lead found, MarkedAt mark Form lead s found ∧ lead.length = n :=
    ⟨lead.length, lead, found, h, rfl⟩
  obtain ⟨lead, found, hat, hlength⟩ := Nat.find_spec hlengths
  refine ⟨found, lead, hat, fun lead' found' hat' => ?_⟩
  rw [hlength]
  exact Nat.find_min' hlengths ⟨lead', found', hat', rfl⟩

/-- The search finds nothing if nothing of the form stands behind a mark. -/
theorem firstAfter_eq_none_iff
    (hread : ∀ rest, rest <:+ s → ∀ found, read rest = some found ↔ Form rest found) :
    firstAfter mark read s = none ↔ ∀ lead found, ¬MarkedAt mark Form lead s found := by
  constructor
  · intro hnone lead found hat
    obtain ⟨first, hfirst⟩ := exists_firstMarked hat
    rw [(firstAfter_eq_some_iff hread).mpr hfirst] at hnone
    contradiction
  · intro h
    rw [Option.eq_none_iff_forall_ne_some]
    intro found hsome
    obtain ⟨lead, hat, _⟩ := (firstAfter_eq_some_iff hread).mp hsome
    exact h lead found hat

end Search

end DocAtlas.Text
