import DocAtlas.Text.Search
import Mathlib.Data.List.Infix

/-!
# Cutting at the first separator

A run of characters of a class ends at the first character outside the class. A text is cut where
the separator begins for the first time, and it is not cut if it does not hold the separator. A
separator may overlap itself and what stands before it, so the beginning counts: it lies in a text
even if the separator runs on into what follows.
-/

namespace DocAtlas.Text

/-- A run of characters of a class is taken up to a character outside the class. -/
theorem takeWhile_append_of_stop {p : Char → Bool} {run rest : List Char}
    (hrun : ∀ c ∈ run, p c = true) (hstop : ∀ c, rest.head? = some c → p c = false) :
    (run ++ rest).takeWhile p = run := by
  rw [List.takeWhile_append_of_pos hrun]
  cases rest with
  | nil => rw [List.takeWhile_nil, List.append_nil]
  | cons c rest => simp [hstop c rfl]

/-- What follows a run of characters of a class begins with a character outside the class. -/
theorem dropWhile_append_of_stop {p : Char → Bool} {run rest : List Char}
    (hrun : ∀ c ∈ run, p c = true) (hstop : ∀ c, rest.head? = some c → p c = false) :
    (run ++ rest).dropWhile p = rest := by
  rw [List.dropWhile_append_of_pos hrun]
  cases rest with
  | nil => rfl
  | cons c rest => simp [hstop c rfl]

/-- Does a part begin in a text, though it may run on into what follows the text? -/
def BeginsIn (part s after : List Char) : Prop :=
  ∃ front back, s = front ++ back ∧ back ≠ [] ∧ part <+: back ++ after

section

variable {part separator s t before after : List Char} {c : Char}

/-- Nothing begins in an empty text. -/
theorem not_beginsIn_nil : ¬BeginsIn part [] after := by
  intro h
  obtain ⟨front, back, heq, hne, _⟩ := h
  exact hne (List.append_eq_nil_iff.mp heq.symm).2

/-- A part begins with the first character of a text or behind it. -/
theorem beginsIn_cons_iff :
    BeginsIn part (c :: s) after ↔ part <+: c :: (s ++ after) ∨ BeginsIn part s after := by
  constructor
  · intro h
    obtain ⟨front, back, heq, hne, hpart⟩ := h
    cases front with
    | nil =>
      rw [List.nil_append] at heq
      exact .inl (by rwa [← heq] at hpart)
    | cons d front =>
      obtain ⟨_, hs⟩ := List.cons.inj heq
      exact .inr ⟨front, back, hs, hne, hpart⟩
  · intro h
    rcases h with hpart | ⟨front, back, rfl, hne, hpart⟩
    · exact ⟨[], c :: s, rfl, List.cons_ne_nil c s, hpart⟩
    · exact ⟨c :: front, back, rfl, hne, hpart⟩

/-- What begins in a text still begins there if more follows. -/
theorem BeginsIn.append_right (h : BeginsIn part s after) (more : List Char) :
    BeginsIn part s (after ++ more) := by
  obtain ⟨front, back, heq, hne, hpart⟩ := h
  refine ⟨front, back, heq, hne, hpart.trans ?_⟩
  rw [← List.append_assoc]
  exact List.prefix_append _ more

/-- A part of a text begins in it. -/
theorem beginsIn_of_isInfix (hne : part ≠ []) (h : part <:+: s) (after : List Char) :
    BeginsIn part s after := by
  obtain ⟨front, back, rfl⟩ := h
  refine ⟨front, part ++ back, List.append_assoc .., fun hnil => ?_, ?_⟩
  · exact hne (List.append_eq_nil_iff.mp hnil).1
  · rw [List.append_assoc]
    exact List.prefix_append part _

/-- A part that is put behind a text in which it does not begin is found there only. -/
theorem isPrefix_drop_append_iff (hne : part ≠ []) (hs : ¬BeginsIn part s part) (n : ℕ) :
    part <+: (s ++ part).drop n ↔ n = s.length := by
  constructor
  · intro h
    have hlength := h.length_le
    have hpos := List.length_pos_iff.mpr hne
    rw [List.length_drop, List.length_append] at hlength
    by_contra hother
    have hlt : n < s.length := by omega
    refine hs ⟨s.take n, s.drop n, (List.take_append_drop n s).symm, ?_, ?_⟩
    · exact fun hnil => Nat.not_le.mpr hlt (List.drop_eq_nil_iff.mp hnil)
    · rwa [← List.drop_append_of_le_length hlt.le]
  · intro h
    rw [h, List.drop_left]

/-- Two ways to put a text in front of the first place where a part begins are the same. -/
theorem eq_of_not_beginsIn {s' t' : List Char} (heq : s ++ t = s' ++ t') (hs : ¬BeginsIn part s t)
    (hs' : ¬BeginsIn part s' t') (ht : part <+: t) (ht' : part <+: t') : s = s' := by
  rcases List.append_eq_append_iff.mp heq with ⟨more, rfl, rfl⟩ | ⟨more, rfl, rfl⟩
  · by_cases hmore : more = []
    · rw [hmore, List.append_nil]
    · exact absurd ⟨s, more, rfl, hmore, ht⟩ hs'
  · by_cases hmore : more = []
    · rw [hmore, List.append_nil]
    · exact absurd ⟨s', more, rfl, hmore, ht'⟩ hs

/-- A text is cut at the first place where the separator begins. -/
theorem cut?_eq_some_iff (hne : separator ≠ []) :
    cut? separator s = some (before, after) ↔
      s = before ++ (separator ++ after) ∧ ¬BeginsIn separator before (separator ++ after) := by
  induction s generalizing before with
  | nil => simp [cut?, hne]
  | cons c s ih =>
    rw [cut?]
    cases hstrip : stripPrefix? separator (c :: s) with
    | some tail =>
      have hstart := stripPrefix?_eq_some_iff.mp hstrip
      constructor
      · intro h
        obtain ⟨rfl, rfl⟩ := Prod.mk.inj (Option.some.inj h)
        exact ⟨hstart, not_beginsIn_nil⟩
      · intro h
        obtain ⟨heq, hbefore⟩ := h
        cases before with
        | nil => rw [List.append_cancel_left (hstart.symm.trans heq)]
        | cons d before =>
          refine absurd (beginsIn_cons_iff.mpr (.inl ?_)) hbefore
          rw [← List.cons_append, ← heq, hstart]
          exact List.prefix_append separator tail
    | none =>
      have hstart (tail : List Char) : c :: s ≠ separator ++ tail := by
        intro heq
        rw [stripPrefix?_eq_some_iff.mpr heq] at hstrip
        contradiction
      cases before with
      | nil => simp [hstart]
      | cons d before =>
        have hearlier (heq : s = before ++ (separator ++ after)) :
            ¬separator <+: c :: (before ++ (separator ++ after)) := by
          intro hbegin
          obtain ⟨tail, htail⟩ := hbegin
          rw [← heq] at htail
          exact hstart tail htail.symm
        constructor
        · intro h
          obtain ⟨⟨front, rest⟩, hcut, hfront⟩ := Option.map_eq_some_iff.mp h
          obtain ⟨hcons, rfl⟩ := Prod.mk.inj hfront
          obtain ⟨rfl, rfl⟩ := List.cons.inj hcons
          obtain ⟨heq, hbefore⟩ := ih.mp hcut
          refine ⟨by rw [heq]; rfl, fun hbegin => ?_⟩
          exact (beginsIn_cons_iff.mp hbegin).elim (hearlier heq) hbefore
        · intro h
          obtain ⟨hcons, hbefore⟩ := h
          obtain ⟨rfl, heq⟩ := List.cons.inj hcons
          have hcut := ih.mpr ⟨heq, fun hbegin => hbefore (beginsIn_cons_iff.mpr (.inr hbegin))⟩
          rw [hcut]
          rfl

/-- A text is not cut if it does not hold the separator. -/
theorem cut?_eq_none_iff (hne : separator ≠ []) :
    cut? separator s = none ↔ ¬separator <:+: s := by
  induction s with
  | nil => simp [cut?, hne]
  | cons c s ih =>
    rw [cut?, List.infix_cons_iff]
    cases hstrip : stripPrefix? separator (c :: s) with
    | some tail =>
      have hstart : separator <+: c :: s := ⟨tail, (stripPrefix?_eq_some_iff.mp hstrip).symm⟩
      simp [hstart]
    | none =>
      have hstart : ¬separator <+: c :: s := by
        intro hbegin
        obtain ⟨tail, htail⟩ := hbegin
        rw [stripPrefix?_eq_some_iff.mpr htail.symm] at hstrip
        contradiction
      simp [hstart, ih]

/-- No separator begins before the place where a text is cut. -/
theorem isPrefix_of_cut?_eq_some (hne : separator ≠ []) (h : cut? separator s = some (before, after))
    {front back : List Char} (heq : s = front ++ (separator ++ back)) :
    before <+: front ∧ back <:+ after := by
  obtain ⟨hs, hbefore⟩ := (cut?_eq_some_iff hne).mp h
  have hfront : before <+: front := by
    rcases List.append_eq_append_iff.mp (hs.symm.trans heq) with ⟨more, rfl, -⟩ | ⟨more, rfl, hback⟩
    · exact List.prefix_append before more
    · by_cases hmore : more = []
      · rw [hmore, List.append_nil]
      · exact absurd ⟨front, more, rfl, hmore, hback ▸ List.prefix_append separator back⟩ hbefore
  refine ⟨hfront, ?_⟩
  have hlength := congrArg List.length (hs.symm.trans heq)
  have hfront_length := hfront.length_le
  simp only [List.length_append] at hlength
  have hback : back <:+ s := ⟨front ++ separator, by rw [heq, List.append_assoc]⟩
  have hafter : after <:+ s := ⟨before ++ separator, by rw [hs, List.append_assoc]⟩
  exact List.suffix_of_suffix_length_le hback hafter (by omega)

/-- What stands before the first separator begins the text. -/
theorem before_isPrefix (hne : separator ≠ []) : Text.before separator s <+: s := by
  rw [Text.before]
  cases hcut : cut? separator s with
  | none => exact List.prefix_rfl
  | some found => exact ⟨_, ((cut?_eq_some_iff hne).mp hcut).1.symm⟩

/-- What stands behind the first separator ends the text. -/
theorem after_isSuffix (hne : separator ≠ []) : Text.after separator s <:+ s := by
  rw [Text.after]
  cases hcut : cut? separator s with
  | none => exact List.nil_suffix
  | some found =>
    refine ⟨found.1 ++ separator, ?_⟩
    rw [List.append_assoc]
    exact ((cut?_eq_some_iff hne).mp hcut).1.symm

/-- A part occurs in a text if it stands somewhere in it. -/
theorem occursIn_iff (hne : part ≠ []) : occursIn part s = true ↔ part <:+: s := by
  rw [occursIn, Option.isSome_iff_ne_none, Ne, cut?_eq_none_iff hne, not_not]

/-- What holds behind the first separator holds behind all of them. -/
theorem forall_mem_after_iff (hne : separator ≠ []) {p : Char → Prop} :
    (∀ c ∈ Text.after separator s, p c) ↔
      ∀ front back, s = front ++ (separator ++ back) → ∀ c ∈ back, p c := by
  rw [Text.after]
  constructor
  · intro h front back heq c hc
    have hsome : cut? separator s ≠ none := by
      rw [Ne, cut?_eq_none_iff hne, not_not]
      exact ⟨front, back, by rw [heq, List.append_assoc]⟩
    obtain ⟨⟨head, tail⟩, hcut⟩ := Option.ne_none_iff_exists'.mp hsome
    rw [hcut] at h
    exact h c ((isPrefix_of_cut?_eq_some hne hcut heq).2.subset hc)
  · intro h
    cases hcut : cut? separator s with
    | none => exact List.forall_mem_nil _
    | some found => exact h found.1 found.2 ((cut?_eq_some_iff hne).mp hcut).1

/-- A text is cut at the first place of a character. -/
theorem cut?_of_notMem {c : Char} {s : List Char} (h : c ∉ s) (rest : List Char) :
    cut? [c] (s ++ c :: rest) = some (s, rest) := by
  induction s with
  | nil => simp [cut?, stripPrefix?]
  | cons d s ih =>
    rw [List.mem_cons, not_or] at h
    rw [List.cons_append, cut?, ih h.2]
    simp [stripPrefix?, h.1]

/-- A text is cut at the first place of a character exactly if the character is not before it. -/
theorem cut?_singleton_eq_some_iff {c : Char} {s before after : List Char} :
    cut? [c] s = some (before, after) ↔ s = before ++ c :: after ∧ c ∉ before := by
  constructor
  · intro h
    obtain ⟨heq, hbefore⟩ := (cut?_eq_some_iff (List.cons_ne_nil c [])).mp h
    refine ⟨heq, fun hmem => hbefore ?_⟩
    obtain ⟨front, back, rfl⟩ := List.append_of_mem hmem
    exact ⟨front, c :: back, rfl, List.cons_ne_nil c back, ⟨_, rfl⟩⟩
  · intro h
    obtain ⟨rfl, hmem⟩ := h
    exact cut?_of_notMem hmem after

end

end DocAtlas.Text
