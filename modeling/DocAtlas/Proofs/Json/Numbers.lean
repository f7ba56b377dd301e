import DocAtlas.Proofs.Json.Grammar
import DocAtlas.Proofs.Text.Cut
import Mathlib.Data.List.TakeWhile

/-!
# Numbers are read after the grammar

The reader of numbers takes as much as it can. In a text after the grammar a number is followed by
nothing that could go on with it, so what is taken is the number. An integer with too many digits is
refused, whatever follows it.
-/

namespace DocAtlas.Json

open DocAtlas.Text

/-- The decimal digits are those of the table. -/
theorem isDigit_iff {c : Char} : isDigit c = true ↔ c ∈ "0123456789".toList := by
  constructor
  · intro h
    have hdigit : ∀ k < 10, Char.ofNat (48 + k) ∈ "0123456789".toList := by decide
    rw [isDigit, Bool.and_eq_true, decide_eq_true_eq, decide_eq_true_eq] at h
    have hfrom : 48 ≤ c.toNat := h.1
    have hto : c.toNat ≤ 57 := h.2
    have hmem := hdigit (c.toNat - 48) (by omega)
    rwa [Nat.add_sub_of_le hfrom, Char.ofNat_toNat] at hmem
  · intro h
    have hdigit : ∀ c ∈ "0123456789".toList, isDigit c = true := by simp [isDigit]
    exact hdigit c h

/-- Digits in front of anything else are all taken. -/
theorem IsDigits.take_drop {s rest : List Char} (h : IsDigits s)
    (hrest : ∀ c, rest.head? = some c → isDigit c = false) :
    (s ++ rest).takeWhile isDigit = s ∧ (s ++ rest).dropWhile isDigit = rest := by
  have hs : ∀ c ∈ s, isDigit c = true := fun c hc => isDigit_iff.mpr (h.2 c hc)
  exact ⟨takeWhile_append_of_stop hs hrest, dropWhile_append_of_stop hs hrest⟩

/-- Digits that are taken are digits, if there are any. -/
theorem isDigits_takeWhile {s : List Char} (h : s.takeWhile isDigit ≠ []) :
    IsDigits (s.takeWhile isDigit) :=
  ⟨h, fun _ hc => isDigit_iff.mp (List.mem_takeWhile_imp hc)⟩

/-- The digits before the point are read. -/
theorem IsWhole.readWhole {s rest : List Char} (h : IsWhole s)
    (hrest : ∀ c, rest.head? = some c → isDigit c = false) :
    readWhole (s ++ rest) = .ok (s, rest) := by
  obtain ⟨hdigits, hzero⟩ := h
  obtain ⟨htake, hdrop⟩ := hdigits.take_drop hrest
  unfold Json.readWhole
  split
  · next tail heq =>
    have hhead : s.head? = some '0' := by
      cases s with
      | nil => exact absurd rfl hdigits.1
      | cons c s => rw [List.head?_cons, (List.cons.inj heq).1]
    obtain rfl := hzero hhead
    have htail : tail = rest := (List.cons.inj heq).2.symm
    rw [htail]
  · split
    · next hnil => exact absurd (htake.symm.trans hnil) hdigits.1
    · rw [htake, hdrop]

/-- What is read before the point are its digits. -/
theorem isWhole_of_readWhole {s whole rest : List Char} (h : readWhole s = .ok (whole, rest)) :
    s = whole ++ rest ∧ IsWhole whole := by
  unfold Json.readWhole at h
  split at h
  · cases h
    exact ⟨rfl, ⟨by simp, by simp⟩, fun _ => rfl⟩
  · next hzero =>
    split at h
    · cases h
    · next hsome =>
      cases h
      refine ⟨List.takeWhile_append_dropWhile.symm, isDigits_takeWhile hsome, fun hhead => ?_⟩
      rw [List.head?_takeWhile, Option.filter_eq_some_iff] at hhead
      obtain ⟨tail, rfl⟩ := List.head?_eq_some_iff.mp hhead.1
      exact (hzero tail rfl).elim

/-- What does not go on with a point has no fraction. -/
theorem readFraction_of_head? {s : List Char} (h : s.head? ≠ some '.') : readFraction s = ([], s) := by
  cases s with
  | nil => rfl
  | cons c s =>
    rw [readFraction]
    exact fun rest heq => h (congrArg List.head? heq)

/-- A fraction is read. -/
theorem IsFraction.readFraction {s digits rest : List Char} (h : IsFraction s digits)
    (hdigit : ∀ c, rest.head? = some c → isDigit c = false) (hpoint : rest.head? ≠ some '.') :
    readFraction (s ++ rest) = (digits, rest) := by
  cases h with
  | none => exact readFraction_of_head? hpoint
  | digits hdigits =>
    obtain ⟨htake, hdrop⟩ := hdigits.take_drop hdigit
    rw [List.cons_append, Json.readFraction, htake, hdrop]
    obtain ⟨c, tail, rfl⟩ := List.exists_cons_of_ne_nil hdigits.1
    rfl

/-- What is read as a fraction is one. -/
theorem exists_isFraction (s : List Char) :
    ∃ fraction, s = fraction ++ (readFraction s).2 ∧ IsFraction fraction (readFraction s).1 := by
  unfold readFraction
  split
  · next rest =>
    split
    · exact ⟨[], rfl, .none⟩
    · next hsome =>
      refine ⟨'.' :: rest.takeWhile isDigit, ?_, .digits (isDigits_takeWhile hsome)⟩
      rw [List.cons_append, List.takeWhile_append_dropWhile]
  · exact ⟨[], rfl, .none⟩

/-- A fraction that is there has digits. -/
theorem IsFraction.eq_nil_iff {s digits : List Char} (h : IsFraction s digits) :
    s = [] ↔ digits = [] := by
  cases h with
  | none => exact Iff.rfl
  | digits hdigits => exact iff_of_false (List.cons_ne_nil _ _) hdigits.1

/-- The digits of an exponent are read. -/
theorem IsDigits.readExponentDigits {digits rest : List Char} (h : IsDigits digits) (factor : ℤ)
    (hrest : ∀ c, rest.head? = some c → isDigit c = false) :
    readExponentDigits factor (digits ++ rest) = some (factor * ofDigits digits, rest) := by
  obtain ⟨htake, hdrop⟩ := h.take_drop hrest
  rw [Json.readExponentDigits, htake, hdrop]
  obtain ⟨c, tail, rfl⟩ := List.exists_cons_of_ne_nil h.1
  rfl

/-- What is read as the digits of an exponent are digits. -/
theorem of_readExponentDigits {s rest : List Char} {factor power : ℤ}
    (h : readExponentDigits factor s = some (power, rest)) :
    ∃ digits, s = digits ++ rest ∧ IsDigits digits ∧ power = factor * ofDigits digits := by
  rw [readExponentDigits] at h
  split at h
  · cases h
  · next hsome =>
    cases h
    exact ⟨_, List.takeWhile_append_dropWhile.symm, isDigits_takeWhile hsome, rfl⟩

/-- What does not go on with the mark of an exponent has none. -/
theorem readExponent_of_head? {s : List Char} (h : ∀ c, s.head? = some c → c ∉ ['e', 'E']) :
    readExponent s = none := by
  have hmark {c : Char} (hc : c ∉ ['e', 'E']) : (c = 'e' || c = 'E') = false := by
    simpa using hc
  unfold readExponent
  split
  all_goals first | rfl | rw [hmark (h _ rfl), if_neg Bool.false_ne_true]

/-- An exponent is read. -/
theorem readExponent_append {mark : Char} {sign digits rest : List Char} {factor : ℤ}
    (hmark : mark ∈ ['e', 'E']) (hsign : (sign, factor) ∈ exponentSigns) (hdigits : IsDigits digits)
    (hrest : ∀ c, rest.head? = some c → isDigit c = false) :
    readExponent (mark :: (sign ++ (digits ++ rest))) = some (factor * ofDigits digits, rest) := by
  have hread := hdigits.readExponentDigits factor hrest
  have hmark : (mark = 'e' || mark = 'E') = true := by
    simpa using hmark
  simp only [exponentSigns, List.mem_cons, Prod.mk.injEq, List.not_mem_nil, or_false] at hsign
  rcases hsign with ⟨rfl, rfl⟩ | ⟨rfl, rfl⟩ | ⟨rfl, rfl⟩
  · obtain ⟨c, tail, rfl⟩ := List.exists_cons_of_ne_nil hdigits.1
    have hc := hdigits.2 c List.mem_cons_self
    rw [List.nil_append, readExponent, if_pos hmark, hread]
    · exact fun _ heq => absurd ((List.cons.inj heq).1 ▸ hc) (by decide)
    · exact fun _ heq => absurd ((List.cons.inj heq).1 ▸ hc) (by decide)
  · exact (if_pos hmark).trans hread
  · exact (if_pos hmark).trans hread

/-- What is read as an exponent is one. -/
theorem exists_isExponent {s rest : List Char} {power : ℤ} (h : readExponent s = some (power, rest)) :
    ∃ mark sign digits factor, s = mark :: (sign ++ (digits ++ rest)) ∧ mark ∈ ['e', 'E'] ∧
      (sign, factor) ∈ exponentSigns ∧ IsDigits digits ∧ power = factor * ofDigits digits := by
  have hread {mark : Char} {s : List Char} {factor : ℤ}
      (h : (if mark = 'e' || mark = 'E' then readExponentDigits factor s else none) =
        some (power, rest)) :
      ∃ digits, s = digits ++ rest ∧ mark ∈ ['e', 'E'] ∧ IsDigits digits ∧
        power = factor * ofDigits digits := by
    split at h
    · next hmark =>
      obtain ⟨digits, hs, hdigits, hpower⟩ := of_readExponentDigits h
      exact ⟨digits, hs, by simpa using hmark, hdigits, hpower⟩
    · cases h
  unfold readExponent at h
  split at h
  · obtain ⟨digits, rfl, hmark, hdigits, hpower⟩ := hread h
    exact ⟨_, ['-'], digits, -1, rfl, hmark, by decide, hdigits, hpower⟩
  · obtain ⟨digits, rfl, hmark, hdigits, hpower⟩ := hread h
    exact ⟨_, ['+'], digits, 1, rfl, hmark, by decide, hdigits, hpower⟩
  · obtain ⟨digits, rfl, hmark, hdigits, hpower⟩ := hread h
    exact ⟨_, [], digits, 1, rfl, hmark, by decide, hdigits, hpower⟩
  · cases h

/-- What may follow a value: a blank, a comma, a closing bracket or brace, or nothing. -/
def Ends (rest : List Char) : Prop :=
  ∀ c, rest.head? = some c → c ∈ [' ', '\t', '\n', '\r', ',', ']', '\x7d']

/-- What may follow a value goes on with no number. -/
theorem Ends.no_number {rest : List Char} (h : Ends rest) :
    (∀ c, rest.head? = some c → isDigit c = false) ∧ rest.head? ≠ some '.' ∧
      ∀ c, rest.head? = some c → c ∉ ['e', 'E'] := by
  have hends : ∀ c ∈ [' ', '\t', '\n', '\r', ',', ']', '\x7d'],
      isDigit c = false ∧ c ≠ '.' ∧ c ∉ ['e', 'E'] := by simp [isDigit]
  exact ⟨fun c hc => (hends c (h c hc)).1, fun hc => (hends _ (h _ hc)).2.1 rfl,
    fun c hc => (hends c (h c hc)).2.2⟩

/-- The outcome of reading a text after the grammar. -/
def outcome {α : Type} (long : Bool) (found : α) : Except ReadError α :=
  if long then .error .integerTooLong else .ok found

/-- An integer is read, unless it has too many digits. -/
theorem readNumber_integer {whole rest : List Char} (negative : Bool) (hwhole : IsWhole whole)
    (hrest : Ends rest) :
    readNumber negative (whole ++ rest) = outcome (decide (maxDigits < whole.length))
      (.int (if negative then -(ofDigits whole : ℤ) else ofDigits whole), rest) := by
  obtain ⟨hdigit, hpoint, hmark⟩ := hrest.no_number
  simp only [readNumber, hwhole.readWhole hdigit, readFraction_of_head? hpoint,
    readExponent_of_head? hmark, bind, Except.bind, List.isEmpty_nil, if_true, integer, outcome,
    decide_eq_true_eq]
  by_cases hlong : maxDigits < whole.length
  · rw [if_pos hlong, if_pos hlong]
  · rw [if_neg hlong, if_neg hlong]

/-- What follows the digits of a number goes on neither with a digit nor, behind the fraction, with a
point. -/
theorem IsExponent.no_number {exponent rest : List Char} {power : ℤ} (h : IsExponent exponent power)
    (hrest : Ends rest) :
    (∀ c, (exponent ++ rest).head? = some c → isDigit c = false) ∧
      (exponent ++ rest).head? ≠ some '.' := by
  cases h with
  | none => exact ⟨hrest.no_number.1, hrest.no_number.2.1⟩
  | @digits mark _ _ _ hmark =>
    have hmarks : ∀ mark ∈ ['e', 'E'], isDigit mark = false ∧ mark ≠ '.' := by simp [isDigit]
    refine ⟨fun c hc => ?_, fun hc => ?_⟩
    · exact Option.some.inj hc ▸ (hmarks mark hmark).1
    · exact (hmarks mark hmark).2 (Option.some.inj hc)

/-- A number with a fraction or an exponent is read. -/
theorem readNumber_real {whole fraction digits exponent rest : List Char} {power : ℤ} (negative : Bool)
    (hwhole : IsWhole whole) (hfraction : IsFraction fraction digits)
    (hexponent : IsExponent exponent power) (hreal : fraction ≠ [] ∨ exponent ≠ [])
    (hrest : Ends rest) :
    readNumber negative (whole ++ (fraction ++ (exponent ++ rest))) =
      .ok (.real negative (ofDigits (whole ++ digits)) (power - digits.length), rest) := by
  obtain ⟨hdigit, hpoint⟩ := hexponent.no_number hrest
  have hbehind : ∀ c, (fraction ++ (exponent ++ rest)).head? = some c → isDigit c = false := by
    cases hfraction with
    | none => exact hdigit
    | digits =>
      intro c hc
      obtain rfl := Option.some.inj hc
      rfl
  simp only [readNumber, hwhole.readWhole hbehind, hfraction.readFraction hdigit hpoint, bind,
    Except.bind]
  cases hexponent with
  | none =>
    cases hfraction with
    | none => simp at hreal
    | digits hdigits =>
      rw [List.nil_append, readExponent_of_head? hrest.no_number.2.2, Int.zero_sub]
      obtain ⟨c, tail, rfl⟩ := List.exists_cons_of_ne_nil hdigits.1
      rfl
  | digits hmark hsign hdigits =>
    rw [List.cons_append, List.append_assoc,
      readExponent_append hmark hsign hdigits hrest.no_number.1]

/-- What is read as a number is one. -/
theorem exists_spells_of_readNumber {negative : Bool} {s rest : List Char} {value : Json}
    (h : readNumber negative s = .ok (value, rest)) :
    ∃ t, s = t ++ rest ∧ Spells (.value value) (signOf negative ++ t) false := by
  cases hread : readWhole s with
  | error cause =>
    rw [readNumber, hread] at h
    cases h
  | ok found =>
    obtain ⟨whole, behind⟩ := found
    obtain ⟨rfl, hwhole⟩ := isWhole_of_readWhole hread
    obtain ⟨fraction, hbehind, hfraction⟩ := exists_isFraction behind
    simp only [readNumber, hread, bind, Except.bind] at h
    split at h
    · next power after hexponent =>
      cases h
      obtain ⟨mark, sign, digits, factor, heq, hmark, hsign, hdigits, rfl⟩ :=
        exists_isExponent hexponent
      refine ⟨whole ++ (fraction ++ (mark :: (sign ++ digits))), ?_,
        .real negative hwhole hfraction (.digits hmark hsign hdigits) (Or.inr (by simp))⟩
      rw [hbehind, heq]
      simp
    · split at h
      · next hempty =>
        split at h
        · cases h
        · next found hinteger =>
          cases h
          rw [integer] at hinteger
          split at hinteger
          · cases hinteger
          · next hshort =>
            cases hinteger
            have hnil := hfraction.eq_nil_iff.mpr (List.isEmpty_iff.mp hempty)
            have hspells := Spells.integer negative hwhole
            rw [decide_eq_false hshort] at hspells
            rw [hnil, List.nil_append] at hbehind
            exact ⟨whole, congrArg (whole ++ ·) hbehind, hspells⟩
      · next hsome =>
        cases h
        refine ⟨whole ++ (fraction ++ []), ?_, ?_⟩
        · rw [List.append_nil, List.append_assoc, ← hbehind]
        · rw [← Int.zero_sub]
          refine .real negative hwhole hfraction .none (Or.inl fun hnil => hsome ?_)
          rw [hfraction.eq_nil_iff.mp hnil, List.isEmpty_nil]

end DocAtlas.Json
