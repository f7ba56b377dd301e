import DocAtlas.Proofs.Text.Pieces
import DocAtlas.Text.Blank
import Mathlib.Data.List.Infix
import Mathlib.Data.List.TakeWhile

/-!
# Texts without surrounding blanks

Dropping blanks leaves a text alone that neither begins nor ends with one. Such a text keeps its
ends when something is put before or behind it, and joined texts of that kind are of that kind
again. Blanks that are put around any text are dropped with those it had.
-/

namespace DocAtlas.Text

/-- A text that does not begin with a blank stays as it is. -/
theorem trimStart_cons {c : Char} (h : isBlank c = false) (s : List Char) :
    trimStart (c :: s) = c :: s := by
  rw [trimStart, List.dropWhile_cons_of_neg (by simp [h])]

/-- A text that does not end with a blank stays as it is. -/
theorem trimEnd_concat {c : Char} (h : isBlank c = false) (s : List Char) :
    trimEnd (s ++ [c]) = s ++ [c] := by
  rw [trimEnd, List.reverse_concat, List.dropWhile_cons_of_neg (by simp [h]), List.reverse_cons,
    List.reverse_reverse]

/-- What is left without blanks at the start does not begin with one. -/
theorem isBlank_of_head?_trimStart {s : List Char} {c : Char} (h : (trimStart s).head? = some c) :
    isBlank c = false := by
  have hhead := List.head?_dropWhile_not isBlank s
  rw [trimStart] at h
  simpa [h] using hhead

/-- What is left without blanks at the end does not end with one. -/
theorem isBlank_of_getLast?_trimEnd {s : List Char} {c : Char} (h : (trimEnd s).getLast? = some c) :
    isBlank c = false := by
  rw [trimEnd, List.getLast?_reverse] at h
  exact isBlank_of_head?_trimStart h

/-- Dropping blanks at the end keeps a beginning of a text. -/
theorem trimEnd_isPrefix (s : List Char) : trimEnd s <+: s := by
  rw [trimEnd, ← List.reverse_suffix, List.reverse_reverse]
  exact List.dropWhile_suffix _

/-- A text that does not end with a blank has none to drop at its end. -/
theorem trimEnd_eq_self {s : List Char} (h : ∀ c, s.getLast? = some c → isBlank c = false) :
    trimEnd s = s := by
  obtain rfl | ⟨front, c, rfl⟩ := List.eq_nil_or_concat' s
  · rfl
  · exact trimEnd_concat (h c List.getLast?_concat) front

/-- Blanks behind a text are dropped. -/
theorem trimEnd_append_of_forall {after : List Char} (h : ∀ c ∈ after, isBlank c = true)
    (s : List Char) : trimEnd (s ++ after) = trimEnd s := by
  rw [trimEnd, trimEnd, List.reverse_append, List.dropWhile_append_of_pos]
  intro c hc
  exact h c (List.mem_reverse.mp hc)

/-- What is dropped at the end of a text is blanks. -/
theorem exists_eq_trimEnd_append (s : List Char) :
    ∃ after, (∀ c ∈ after, isBlank c = true) ∧ s = trimEnd s ++ after := by
  refine ⟨(s.reverse.takeWhile isBlank).reverse, fun c hc => ?_, ?_⟩
  · exact List.all_eq_true.mp List.all_takeWhile c (List.mem_reverse.mp hc)
  · rw [trimEnd, ← List.reverse_append, List.takeWhile_append_dropWhile, List.reverse_reverse]

/-- Blanks before a text are dropped. -/
theorem trim_append_of_forall {before : List Char} (h : ∀ c ∈ before, isBlank c = true)
    (s : List Char) : trim (before ++ s) = trim s := by
  rw [trim, trimStart, List.dropWhile_append_of_pos h]
  rfl

/-- Blanks before a text stay when blanks at its end are dropped, unless it holds nothing else. -/
theorem exists_trimEnd_append {before : List Char} (h : ∀ c ∈ before, isBlank c = true)
    (s : List Char) :
    ∃ front, (∀ c ∈ front, isBlank c = true) ∧ trimEnd (before ++ s) = front ++ trimEnd s := by
  obtain ⟨after, hafter, hsplit⟩ := exists_eq_trimEnd_append s
  have htrim : trimEnd (before ++ s) = trimEnd (before ++ trimEnd s) := by
    rw [hsplit, ← List.append_assoc, trimEnd_append_of_forall hafter, ← hsplit]
  by_cases hempty : trimEnd s = []
  · refine ⟨[], by simp, ?_⟩
    rw [htrim, hempty, List.append_nil]
    exact trimEnd_append_of_forall h []
  · refine ⟨before, h, ?_⟩
    rw [htrim]
    refine trimEnd_eq_self fun c hc => ?_
    rw [List.getLast?_append_of_ne_nil _ hempty] at hc
    exact isBlank_of_getLast?_trimEnd hc

/-- No blanks surround a text that neither begins nor ends with one. -/
theorem trim_eq_self {s : List Char} (hfirst : ∀ c, s.head? = some c → isBlank c = false)
    (hlast : ∀ c, s.getLast? = some c → isBlank c = false) : trim s = s := by
  have hstart : trimStart s = s := by
    cases s with
    | nil => rfl
    | cons c rest => exact trimStart_cons (hfirst c rfl) rest
  rw [trim, hstart, trimEnd_eq_self hlast]

/-- What is left without surrounding blanks is part of the text. -/
theorem trim_isInfix (s : List Char) : trim s <:+: s :=
  (trimEnd_isPrefix (trimStart s)).isInfix.trans (List.dropWhile_suffix isBlank).isInfix

/-- Nothing is left of blanks only. -/
theorem trim_eq_nil_iff {s : List Char} : trim s = [] ↔ ∀ c ∈ s, isBlank c = true := by
  have hstart : trimStart s = [] ↔ ∀ c ∈ s, isBlank c = true := List.dropWhile_eq_nil_iff
  rw [← hstart]
  constructor
  · intro h
    -- What is left at the start would have to be blanks, but does not begin with one.
    obtain ⟨after, hafter, heq⟩ := exists_eq_trimEnd_append (trimStart s)
    rw [← trim, h, List.nil_append] at heq
    cases after with
    | nil => exact heq
    | cons c rest =>
      have hblank : isBlank c = false := isBlank_of_head?_trimStart (s := s) (by rw [heq]; rfl)
      rw [hafter c List.mem_cons_self] at hblank
      cases hblank
  · intro h
    rw [trim, h]
    rfl

/-- Surrounding blanks are dropped all at once. -/
theorem trim_trim (s : List Char) : trim (trim s) = trim s := by
  refine trim_eq_self (fun c hc => ?_) fun c hc => isBlank_of_getLast?_trimEnd hc
  obtain ⟨after, hafter⟩ := trimEnd_isPrefix (trimStart s)
  refine isBlank_of_head?_trimStart (s := s) ?_
  rw [← hafter, ← trim, List.head?_append, hc]
  rfl

/-- No blanks surround the characters of a string if none surround the string. -/
theorem trim_toList {s : String} (h : trimmed s = s) : trim s.toList = s.toList := by
  have hchars := congrArg String.toList h
  rwa [trimmed, String.toList_ofList] at hchars

/-- A text without surrounding blanks has a first and a last character that are no blanks. -/
theorem exists_ends_of_trim {s : List Char} (hne : s ≠ []) (h : trim s = s) :
    (∃ c rest, s = c :: rest ∧ isBlank c = false) ∧
      ∃ front c, s = front ++ [c] ∧ isBlank c = false := by
  constructor
  · obtain ⟨c, rest, rfl⟩ := List.exists_cons_of_ne_nil hne
    refine ⟨c, rest, rfl, ?_⟩
    obtain ⟨tail, htail⟩ := trimEnd_isPrefix (trimStart (c :: rest))
    rw [← trim, h] at htail
    exact isBlank_of_head?_trimStart (s := c :: rest) (by rw [← htail]; rfl)
  · obtain rfl | ⟨front, c, rfl⟩ := List.eq_nil_or_concat' s
    · exact absurd rfl hne
    · refine ⟨front, c, rfl, ?_⟩
      rw [trim] at h
      exact isBlank_of_getLast?_trimEnd (by rw [h, List.getLast?_concat])

/-- A text without surrounding blanks does not end with blanks only. -/
theorem eq_nil_of_forall_isBlank {front back : List Char} (htrim : trim (front ++ back) = front ++ back)
    (hback : ∀ c ∈ back, isBlank c = true) : back = [] := by
  by_contra hne
  obtain ⟨-, before, c, heq, hc⟩ := exists_ends_of_trim (List.append_ne_nil_of_right_ne_nil front hne) htrim
  have hlast : back.getLast? = some c := by
    rw [← List.getLast?_append_of_ne_nil front hne, heq, List.getLast?_concat]
  rw [hback c (List.mem_of_getLast? hlast)] at hc
  cases hc

/-- No blanks stand before a text without surrounding blanks, whatever follows it. -/
theorem trimStart_append {s : List Char} (hne : s ≠ []) (h : trim s = s) (after : List Char) :
    trimStart (s ++ after) = s ++ after := by
  obtain ⟨⟨c, rest, rfl, hc⟩, _⟩ := exists_ends_of_trim hne h
  rw [List.cons_append, trimStart_cons hc]

/-- No blanks stand behind a text without surrounding blanks, whatever precedes it. -/
theorem trimEnd_append {s : List Char} (hne : s ≠ []) (h : trim s = s) (before : List Char) :
    trimEnd (before ++ s) = before ++ s := by
  obtain ⟨_, front, c, rfl, hc⟩ := exists_ends_of_trim hne h
  rw [← List.append_assoc, trimEnd_concat hc]

/-- No blanks surround joined pieces if none surround the pieces. -/
theorem trim_joinWith (separator : List Char) {pieces : List (List Char)}
    (h : ∀ piece ∈ pieces, piece ≠ [] ∧ trim piece = piece) :
    trim (joinWith separator pieces) = joinWith separator pieces := by
  by_cases hne : pieces = []
  · subst hne
    rfl
  · obtain ⟨⟨first, hfirst, after, hafter⟩, last, hlast, before, hbefore⟩ :=
      exists_ends_of_joinWith separator hne
    have hstart : trimStart (joinWith separator pieces) = joinWith separator pieces := by
      rw [hafter]
      exact trimStart_append (h first hfirst).1 (h first hfirst).2 after
    rw [trim, hstart, hbefore]
    exact trimEnd_append (h last hlast).1 (h last hlast).2 before

end DocAtlas.Text
