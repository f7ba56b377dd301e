import DocAtlas.Proofs.Json.Grammar
import DocAtlas.Proofs.Json.Strings

/-!
# Strings are read after the grammar

The reader of strings takes the text of letters up to the closing quote, and whatever it takes is such
a text. The one place where it looks ahead is a first half of a surrogate pair: there the letters that
follow decide whether it stands alone.
-/

namespace DocAtlas.Json

open DocAtlas.Text

/-- A character of a range of digits stands at the place of its value. -/
theorem getElem?_of_range {digits : List Char} {first last c : Char} {shift : ℕ}
    (hdigits : ∀ n ≤ last.toNat, first.toNat ≤ n → digits[n - shift]? = some (Char.ofNat n))
    (h : first ≤ c ∧ c ≤ last) : digits[c.toNat - shift]? = some c := by
  have hdigit := hdigits c.toNat h.2 h.1
  rwa [Char.ofNat_toNat] at hdigit

/-- Hexadecimal digits are read as their values. -/
theorem hexValue?_eq_some_iff {c : Char} {value : ℕ} :
    hexValue? c = some value ↔ IsHexDigit c value := by
  constructor
  · intro h
    rw [hexValue?] at h
    split at h
    · next hrange =>
      obtain rfl := Option.some.inj h
      exact Or.inl (getElem?_of_range (by decide) hrange)
    split at h
    · next hrange =>
      obtain rfl := Option.some.inj h
      exact Or.inl (getElem?_of_range (by decide) hrange)
    split at h
    · next hrange =>
      obtain rfl := Option.some.inj h
      exact Or.inr (getElem?_of_range (by decide) hrange)
    · cases h
  · intro h
    have hlower : ∀ n < 16, ("0123456789abcdef".toList[n]?).bind hexValue? = some n := by decide
    have hupper : ∀ n < 16, ("0123456789ABCDEF".toList[n]?).bind hexValue? = some n := by decide
    rcases h with h | h
    · have hread := hlower value (List.getElem?_eq_some_iff.mp h).1
      rwa [h] at hread
    · have hread := hupper value (List.getElem?_eq_some_iff.mp h).1
      rwa [h] at hread

/-- Four digits are read as the unit that they name. -/
theorem unit?_eq_some_iff {a b c d : Char} {n : ℕ} :
    unit? a b c d = some n ↔ NamesUnit [a, b, c, d] n := by
  simp only [unit?, Option.bind_eq_bind, Option.bind_eq_some_iff, hexValue?_eq_some_iff,
    Option.some.injEq]
  constructor
  · rintro ⟨_, ha, _, hb, _, hc, _, hd, rfl⟩
    exact .digits ha hb hc hd
  · intro h
    cases h with
    | digits ha hb hc hd => exact ⟨_, ha, _, hb, _, hc, _, hd, rfl⟩

/-- A unit is named by four digits. -/
theorem NamesUnit.exists_digits {digits : List Char} {n : ℕ} (h : NamesUnit digits n) :
    ∃ a b c d, digits = [a, b, c, d] ∧ unit? a b c d = some n := by
  cases h with
  | digits ha hb hc hd => exact ⟨_, _, _, _, rfl, unit?_eq_some_iff.mpr (.digits ha hb hc hd)⟩

/-- Digits at the beginning of a text name the unit that is read there. -/
theorem NamesUnit.eq_of_append {digits s after rest : List Char} {e f g h : Char} {n found : ℕ}
    (hnamed : NamesUnit digits n) (hunit : unit? e f g h = some found)
    (heq : digits ++ s ++ after = e :: f :: g :: h :: rest) : n = found := by
  obtain ⟨a, b, c, d, rfl, hread⟩ := hnamed.exists_digits
  simp only [List.cons_append, List.nil_append, List.cons.injEq] at heq
  obtain ⟨rfl, rfl, rfl, rfl, _⟩ := heq
  exact Option.some.inj (hread.symm.trans hunit)

/-- A unit that is no half of a pair is a character. -/
theorem ofUnit_of_char {n : ℕ} (h : n < 0xd800 ∨ 0xdfff < n) : ofUnit n = .char (Char.ofNat n) := by
  have hunit : (isHighUnit n || isLowUnit n) = false := by
    simp only [isHighUnit, isLowUnit, Bool.or_eq_false_iff, Bool.and_eq_false_iff,
      decide_eq_false_iff_not]
    omega
  rw [ofUnit, hunit, if_neg Bool.false_ne_true]

/-- Half of a pair stands for itself. -/
theorem ofUnit_of_half {n : ℕ} (hlow : 0xd800 ≤ n) (hhigh : n ≤ 0xdfff) : ofUnit n = .half n := by
  have hunit : (isHighUnit n || isLowUnit n) = true := by
    simp only [isHighUnit, isLowUnit, Bool.or_eq_true, Bool.and_eq_true, decide_eq_true_eq]
    omega
  rw [ofUnit, if_pos hunit]

/-- Letters whose text begins with the second half of a pair begin with that half. -/
theorem SpellsLetters.head?_eq_half {s after rest : List Char} {letters : List Letter}
    {e f g h : Char} {low : ℕ} (hletters : SpellsLetters s letters) (hlow : 0xdc00 ≤ low)
    (hhigh : low ≤ 0xdfff) (hunit : unit? e f g h = some low)
    (heq : s ++ '\x22' :: after = '\\' :: 'u' :: e :: f :: g :: h :: rest) :
    letters.head? = some (.half low) := by
  cases hletters with
  | nil => simp at heq
  | plain _ hbackslash => exact absurd (List.cons.inj heq).1 hbackslash
  | short hescape =>
    obtain rfl := (List.cons.inj (List.cons.inj heq).2).1
    simp [shortEscapes] at hescape
  | unit hnamed hchar =>
    obtain rfl := hnamed.eq_of_append hunit (List.cons.inj (List.cons.inj heq).2).2
    omega
  | half hnamed =>
    obtain rfl := hnamed.eq_of_append hunit (List.cons.inj (List.cons.inj heq).2).2
    rfl
  | pair hnamed _ _ hbelow =>
    obtain rfl := hnamed.eq_of_append hunit (List.cons.inj (List.cons.inj heq).2).2
    omega

/-- The text between the quotes of a string is read as its letters. -/
theorem SpellsLetters.readString {s : List Char} {letters : List Letter}
    (h : SpellsLetters s letters) (rest : List Char) :
    readString (s ++ '\x22' :: rest) = .ok (letters, rest) := by
  induction h with
  | nil => rfl
  | plain hquote hbackslash hcontrol _ ih =>
    rw [List.cons_append, readString_cons hquote hbackslash hcontrol, ih]
    rfl
  | short hescape _ ih =>
    have hread : ∀ pair ∈ shortEscapes, pair.1 ≠ 'u' ∧ escaped? pair.1 = some pair.2 := by decide
    obtain ⟨hunit, hescaped⟩ := hread _ hescape
    rw [List.cons_append, List.cons_append, readString_short hunit hescaped, ih]
    rfl
  | @unit _ _ n _ hunit hchar _ ih =>
    obtain ⟨a, b, c, d, rfl, hread⟩ := hunit.exists_digits
    have hhigh : isHighUnit n = false := by
      simp only [isHighUnit, Bool.and_eq_false_iff, decide_eq_false_iff_not]
      omega
    simp only [List.cons_append, List.nil_append]
    rw [readString_unit hread hhigh, ih, ofUnit_of_char hchar]
    rfl
  | @half _ s n letters hunit hlow hhigh halone h ih =>
    obtain ⟨a, b, c, d, rfl, hread⟩ := hunit.exists_digits
    simp only [List.cons_append, List.nil_append]
    rw [readString_alone hread, ih, ofUnit_of_half hlow hhigh]
    · rfl
    · intro e f g h' low tail heq hnext
      rw [← Bool.not_eq_true]
      intro hpair
      simp only [isHighUnit, isLowUnit, Bool.and_eq_true, decide_eq_true_eq] at hpair
      exact halone (by omega) low hpair.2.1 (h.head?_eq_half hpair.2.1 hpair.2.2 hnext heq)
  | @pair _ _ _ high low _ hfirst hsecond hhigh hbelow hlow habove _ ih =>
    obtain ⟨a, b, c, d, rfl, hread⟩ := hfirst.exists_digits
    obtain ⟨e, f, g, h', rfl, hread'⟩ := hsecond.exists_digits
    have hisHigh : isHighUnit high = true := by
      simp only [isHighUnit, Bool.and_eq_true, decide_eq_true_eq]
      omega
    have hisLow : isLowUnit low = true := by
      simp only [isLowUnit, Bool.and_eq_true, decide_eq_true_eq]
      omega
    simp only [List.cons_append, List.nil_append]
    rw [readString_pair hread hread' hisHigh hisLow, ih]
    rfl

/-- What stands for a character behind a backslash is in the table. -/
theorem mem_shortEscapes {c meaning : Char} (h : escaped? c = some meaning) :
    (c, meaning) ∈ shortEscapes := by
  rw [escaped?] at h
  split at h
  · next hself =>
    obtain rfl := Option.some.inj h
    simp only [Bool.or_eq_true, decide_eq_true_eq] at hself
    rcases hself with (rfl | rfl) | rfl <;> decide
  · repeat' split at h
    all_goals cases h
    all_goals next hc => obtain rfl := hc; decide

/-- A letter is put in front of what was read. -/
theorem prepend_eq_ok_iff {letter : Letter} {read : Except ReadError (List Letter × List Char)}
    {letters : List Letter} {rest : List Char} :
    prepend letter read = .ok (letters, rest) ↔
      ∃ tail, read = .ok (tail, rest) ∧ letters = letter :: tail := by
  cases read with
  | error cause => simp [prepend, Except.map]
  | ok found =>
    obtain ⟨tail, after⟩ := found
    simp only [prepend, Except.map, Except.ok.injEq, Prod.mk.injEq]
    constructor
    · rintro ⟨rfl, rfl⟩
      exact ⟨tail, ⟨rfl, rfl⟩, rfl⟩
    · rintro ⟨_, ⟨rfl, rfl⟩, rfl⟩
      exact ⟨rfl, rfl⟩

/-- Letters that begin with half of a pair are written with its digits. -/
theorem SpellsLetters.exists_of_head?_eq_half {s : List Char} {letters : List Letter} {n : ℕ}
    (h : SpellsLetters s letters) (hhead : letters.head? = some (.half n)) :
    n ≤ 0xdfff ∧ ∃ a b c d tail, s = '\\' :: 'u' :: a :: b :: c :: d :: tail ∧
      unit? a b c d = some n := by
  cases h with
  | nil | plain | short | unit | pair => simp at hhead
  | half hunit _ hhigh =>
    obtain ⟨a, b, c, d, rfl, hread⟩ := hunit.exists_digits
    obtain rfl := Letter.half.inj (Option.some.inj hhead)
    exact ⟨hhigh, a, b, c, d, _, rfl, hread⟩

/-- A unit is put in front of letters with which it makes up no pair. -/
theorem SpellsLetters.alone {a b c d : Char} {n : ℕ} {s : List Char} {letters : List Letter}
    (hunit : unit? a b c d = some n) (rest : List Char) (h : SpellsLetters s letters)
    (halone : ∀ e f g h low tail, s ++ rest = '\\' :: 'u' :: e :: f :: g :: h :: tail →
      unit? e f g h = some low → (isHighUnit n && isLowUnit low) = false) :
    SpellsLetters ('\\' :: 'u' :: a :: b :: c :: d :: s) (ofUnit n :: letters) := by
  by_cases hchar : n < 0xd800 ∨ 0xdfff < n
  · rw [ofUnit_of_char hchar]
    exact .unit (unit?_eq_some_iff.mp hunit) hchar h
  · rw [ofUnit_of_half (by omega) (by omega)]
    refine .half (unit?_eq_some_iff.mp hunit) (by omega) (by omega) (fun hn low hlow hhead => ?_) h
    obtain ⟨hhigh, e, f, g, h', tail, rfl, hread⟩ := h.exists_of_head?_eq_half hhead
    have hpair := halone e f g h' low (tail ++ rest) rfl hread
    simp only [isHighUnit, isLowUnit, Bool.and_eq_false_iff, decide_eq_false_iff_not] at hpair
    omega

/-- What is read up to a closing quote is the text of the letters that are read. -/
theorem exists_spellsLetters {s rest : List Char} {letters : List Letter}
    (h : readString s = .ok (letters, rest)) :
    ∃ body, s = body ++ '\x22' :: rest ∧ SpellsLetters body letters := by
  fun_induction readString s generalizing letters with
  | case1 | case6 | case8 | case10 | case11 => cases h
  | case2 =>
    cases h
    exact ⟨[], rfl, .nil⟩
  | case3 a b c d e f g h' s high low hlow hhigh hpair ih =>
    obtain ⟨tail, hread, rfl⟩ := prepend_eq_ok_iff.mp h
    obtain ⟨body, rfl, hbody⟩ := ih hread
    simp only [isHighUnit, isLowUnit, Bool.and_eq_true, decide_eq_true_eq] at hpair
    refine ⟨_, ?_, .pair (unit?_eq_some_iff.mp hhigh) (unit?_eq_some_iff.mp hlow) (by omega)
      (by omega) (by omega) (by omega) hbody⟩
    rfl
  | case4 a b c d e f g h' s high low hlow hhigh hpair ih =>
    obtain ⟨tail, hread, rfl⟩ := prepend_eq_ok_iff.mp h
    obtain ⟨body, heq, hbody⟩ := ih hread
    refine ⟨_, congrArg ('\\' :: 'u' :: a :: b :: c :: d :: ·) heq,
      hbody.alone hhigh ('\x22' :: rest) ?_⟩
    intro e' f' g' h'' low' tail' htail hread'
    rw [← heq] at htail
    simp only [List.cons.injEq, true_and] at htail
    obtain ⟨rfl, rfl, rfl, rfl, _⟩ := htail
    obtain rfl := Option.some.inj (hlow.symm.trans hread')
    exact Bool.eq_false_iff.mpr hpair
  | case5 a b c d e f g h' s n hlow hhigh ih =>
    obtain ⟨tail, hread, rfl⟩ := prepend_eq_ok_iff.mp h
    obtain ⟨body, heq, hbody⟩ := ih hread
    refine ⟨_, congrArg ('\\' :: 'u' :: a :: b :: c :: d :: ·) heq,
      hbody.alone hhigh ('\x22' :: rest) ?_⟩
    intro e' f' g' h'' low' tail' htail hread'
    rw [← heq] at htail
    simp only [List.cons.injEq, true_and] at htail
    obtain ⟨rfl, rfl, rfl, rfl, _⟩ := htail
    cases hlow.symm.trans hread'
  | case7 a b c d s hend n hunit ih =>
    obtain ⟨tail, hread, rfl⟩ := prepend_eq_ok_iff.mp h
    obtain ⟨body, heq, hbody⟩ := ih hread
    refine ⟨_, congrArg ('\\' :: 'u' :: a :: b :: c :: d :: ·) heq,
      hbody.alone hunit ('\x22' :: rest) ?_⟩
    intro e f g h' low tail' htail _
    exact (hend _ _ _ _ _ (heq.trans htail)).elim
  | case9 c s _ _ found hescape ih =>
    obtain ⟨tail, hread, rfl⟩ := prepend_eq_ok_iff.mp h
    obtain ⟨body, rfl, hbody⟩ := ih hread
    exact ⟨_, rfl, .short (mem_shortEscapes hescape) hbody⟩
  | case12 c s hquote _ _ hbackslash hcontrol ih =>
    obtain ⟨tail, hread, rfl⟩ := prepend_eq_ok_iff.mp h
    have hc : c ≠ '\\' := by
      rintro rfl
      cases s with
      | nil => cases hread
      | cons d s => exact hbackslash d s rfl rfl
    obtain ⟨body, rfl, hbody⟩ := ih hread
    exact ⟨_, rfl, .plain hquote hc (by omega) hbody⟩

end DocAtlas.Json
