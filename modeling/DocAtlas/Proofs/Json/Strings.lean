import DocAtlas.Json.Reader
import DocAtlas.Json.Writer
import Mathlib.Data.Nat.Notation

/-!
# Written strings are read back

A character is written as itself, as a short escape, as the escape of its UTF-16 unit or as the
escapes of a surrogate pair. Each of these is read as that character, whatever follows it: the
escape of a unit is never taken for half of a pair with what follows, as no character is such a
half. All of them are plain ASCII.
-/

namespace DocAtlas.Json

open DocAtlas.Text

/-- A hexadecimal digit is read as its value. -/
theorem hexValue?_hexDigit : ∀ n < 16, hexValue? (hexDigit n) = some n := by
  decide

/-- The digits of a UTF-16 unit are read as the unit. -/
theorem unit?_hexDigit {n : ℕ} (h : n < 0x10000) :
    unit? (hexDigit (n / 4096 % 16)) (hexDigit (n / 256 % 16)) (hexDigit (n / 16 % 16))
      (hexDigit (n % 16)) = some n := by
  have hdigit (k : ℕ) : hexValue? (hexDigit (k % 16)) = some (k % 16) :=
    hexValue?_hexDigit _ (Nat.mod_lt k (by decide))
  simp only [unit?, hdigit, Option.bind_eq_bind, Option.bind_some, Option.some.injEq]
  omega

/-- No character is half of a surrogate pair. -/
theorem ofUnit_toNat (c : Char) : ofUnit c.toNat = .char c := by
  have hvalid : c.toNat < 0xd800 ∨ 0xdfff < c.toNat ∧ c.toNat < 0x110000 := c.valid
  have hunit : (isHighUnit c.toNat || isLowUnit c.toNat) = false := by
    simp only [isHighUnit, isLowUnit, Bool.or_eq_false_iff, Bool.and_eq_false_iff,
      decide_eq_false_iff_not]
    omega
  rw [ofUnit, hunit, if_neg Bool.false_ne_true, Char.ofNat_toNat]

/-- A unit that makes up no pair with what follows it is read alone. -/
theorem readString_alone {a b c d : Char} {n : ℕ} {s : List Char} (hunit : unit? a b c d = some n)
    (halone : ∀ e f g h low rest, s = '\\' :: 'u' :: e :: f :: g :: h :: rest →
      unit? e f g h = some low → (isHighUnit n && isLowUnit low) = false) :
    readString ('\\' :: 'u' :: a :: b :: c :: d :: s) = prepend (ofUnit n) (readString s) := by
  rw [readString.eq_def]
  split
  · contradiction
  · next heq => exact absurd (List.cons.inj heq).1 (by decide)
  · -- Another unit follows, but there is no pair.
    next heq =>
    simp only [List.cons.injEq, true_and] at heq
    obtain ⟨rfl, rfl, rfl, rfl, rfl⟩ := heq
    rw [hunit]
    split
    · next hsome hlow =>
      obtain rfl := Option.some.inj hsome
      rw [halone _ _ _ _ _ _ rfl hlow, if_neg Bool.false_ne_true]
    · next hsome _ => rw [Option.some.inj hsome]
    · contradiction
  · next heq =>
    simp only [List.cons.injEq, true_and] at heq
    obtain ⟨rfl, rfl, rfl, rfl, rfl⟩ := heq
    rw [hunit]
  · next hshort heq =>
    simp only [List.cons.injEq, true_and] at heq
    exact absurd heq.2.symm (hshort _ _ _ _ _ heq.1.symm)
  · next hshort heq =>
    simp only [List.cons.injEq] at heq
    exact absurd heq.2.symm (hshort _ _ heq.1.symm)

/-- A unit that begins no pair is read alone, whatever follows it. -/
theorem readString_unit {a b c d : Char} {n : ℕ} (hunit : unit? a b c d = some n)
    (hhigh : isHighUnit n = false) (s : List Char) :
    readString ('\\' :: 'u' :: a :: b :: c :: d :: s) = prepend (ofUnit n) (readString s) :=
  readString_alone hunit fun _ _ _ _ _ _ _ _ => by rw [hhigh, Bool.false_and]

/-- The halves of a pair are read as one character. -/
theorem readString_pair {a b c d e f g h : Char} {high low : ℕ} (hfirst : unit? a b c d = some high)
    (hsecond : unit? e f g h = some low) (hhigh : isHighUnit high = true)
    (hlow : isLowUnit low = true) (s : List Char) :
    readString ('\\' :: 'u' :: a :: b :: c :: d :: '\\' :: 'u' :: e :: f :: g :: h :: s) =
      prepend (ofPair high low) (readString s) := by
  rw [readString, hfirst, hsecond]
  simp only [hhigh, hlow, Bool.and_self, if_true]

/-- A character that is neither a quote nor a backslash nor a control character stands for
itself. -/
theorem readString_cons {c : Char} (hquote : c ≠ '\x22') (hbackslash : c ≠ '\\')
    (hprintable : 32 ≤ c.toNat) (s : List Char) :
    readString (c :: s) = prepend (.char c) (readString s) := by
  rw [readString.eq_def]
  split
  · contradiction
  · next heq => exact absurd (List.cons.inj heq).1 hquote
  · next heq => exact absurd (List.cons.inj heq).1 hbackslash
  · next heq => exact absurd (List.cons.inj heq).1 hbackslash
  · next heq => exact absurd (List.cons.inj heq).1 hbackslash
  · next heq =>
    obtain ⟨rfl, rfl⟩ := List.cons.inj heq
    rw [if_neg (Nat.not_lt.mpr hprintable)]

/-- A short escape is read as what it stands for. -/
theorem readString_short {letter c : Char} (hunit : letter ≠ 'u') (h : escaped? letter = some c)
    (s : List Char) :
    readString ('\\' :: letter :: s) = prepend (.char c) (readString s) := by
  rw [readString.eq_def]
  split
  · contradiction
  · next heq => exact absurd (List.cons.inj heq).1 (by decide)
  · next heq => exact absurd (List.cons.inj (List.cons.inj heq).2).1 hunit
  · next heq => exact absurd (List.cons.inj (List.cons.inj heq).2).1 hunit
  · next heq =>
    simp only [List.cons.injEq, true_and] at heq
    obtain ⟨rfl, rfl⟩ := heq
    rw [h]
  · next hshort heq =>
    simp only [List.cons.injEq] at heq
    exact absurd heq.2.symm (hshort _ _ heq.1.symm)

/-- The letters of short escapes. -/
def shortLetters : List Char :=
  ['\x22', '\\', 'n', 'r', 't', 'b', 'f']

/-- The forms in which a character is written. -/
theorem escapeChar_cases (c : Char) :
    (∃ letter ∈ shortLetters, escapeChar c = ['\\', letter] ∧ escaped? letter = some c) ∨
      (escapeChar c = [c] ∧ c ≠ '\x22' ∧ c ≠ '\\' ∧ 32 ≤ c.toNat ∧ c.toNat < 127) ∨
      (escapeChar c = escapeUnit c.toNat ∧ c.toNat < 0x10000) ∨
      (escapeChar c = escapeUnit (0xd800 + (c.toNat - 0x10000) / 1024) ++
        escapeUnit (0xdc00 + (c.toNat - 0x10000) % 1024) ∧ 0x10000 ≤ c.toNat) := by
  have hofNat {n : ℕ} (hn : c.toNat = n) : Char.ofNat n = c := by
    rw [← hn, Char.ofNat_toNat]
  unfold escapeChar
  split
  · next hc => exact .inl ⟨'\x22', by decide, rfl, congrArg some hc.symm⟩
  split
  · next hc => exact .inl ⟨'\\', by decide, rfl, congrArg some hc.symm⟩
  split
  · next hc => exact .inl ⟨'n', by decide, rfl, congrArg some hc.symm⟩
  split
  · next hc => exact .inl ⟨'r', by decide, rfl, congrArg some hc.symm⟩
  split
  · next hc => exact .inl ⟨'t', by decide, rfl, congrArg some hc.symm⟩
  split
  · next hc => exact .inl ⟨'b', by decide, rfl, congrArg some (hofNat hc)⟩
  split
  · next hc => exact .inl ⟨'f', by decide, rfl, congrArg some (hofNat hc)⟩
  split
  · next hquote hbackslash _ _ _ _ _ hprintable =>
    exact .inr (.inl ⟨rfl, hquote, hbackslash, hprintable⟩)
  split
  · next hunit => exact .inr (.inr (.inl ⟨rfl, hunit⟩))
  · next hunit => exact .inr (.inr (.inr ⟨rfl, Nat.not_lt.mp hunit⟩))

/-- A written character is read back, whatever follows it. -/
theorem readString_escapeChar_append (c : Char) (s : List Char) :
    readString (escapeChar c ++ s) = prepend (.char c) (readString s) := by
  have hvalid : c.toNat < 0xd800 ∨ 0xdfff < c.toNat ∧ c.toNat < 0x110000 := c.valid
  obtain ⟨letter, hletter, hshort, hescaped⟩ | ⟨hself, hquote, hbackslash, hprintable, _⟩ |
    ⟨hunit, hsmall⟩ | ⟨hpair, hlarge⟩ := escapeChar_cases c
  · have hne : letter ≠ 'u' := fun heq => absurd (heq ▸ hletter) (by decide)
    rw [hshort]
    exact readString_short hne hescaped s
  · rw [hself]
    exact readString_cons hquote hbackslash hprintable s
  · have hhigh : isHighUnit c.toNat = false := by
      simp only [isHighUnit, Bool.and_eq_false_iff, decide_eq_false_iff_not]
      omega
    rw [hunit, ← ofUnit_toNat]
    exact readString_unit (unit?_hexDigit hsmall) hhigh s
  · have hhigh : 0xd800 + (c.toNat - 0x10000) / 1024 < 0xdc00 := by omega
    have hlow : 0xdc00 + (c.toNat - 0x10000) % 1024 < 0xe000 := by omega
    have hchar : ofPair (0xd800 + (c.toNat - 0x10000) / 1024)
        (0xdc00 + (c.toNat - 0x10000) % 1024) = .char c := by
      have hjoin : 0x10000 + (0xd800 + (c.toNat - 0x10000) / 1024 - 0xd800) * 1024 +
          (0xdc00 + (c.toNat - 0x10000) % 1024 - 0xdc00) = c.toNat := by
        omega
      rw [ofPair, hjoin, Char.ofNat_toNat]
    rw [hpair, ← hchar]
    refine readString_pair (unit?_hexDigit (by omega)) (unit?_hexDigit (by omega)) ?_ ?_ s
    · simp only [isHighUnit, Bool.and_eq_true, decide_eq_true_eq]
      omega
    · simp only [isLowUnit, Bool.and_eq_true, decide_eq_true_eq]
      omega

/-- Written characters are read back up to the closing quote. -/
theorem readString_flatMap_escapeChar (s rest : List Char) :
    readString (s.flatMap escapeChar ++ '\x22' :: rest) = .ok (s.map .char, rest) := by
  induction s with
  | nil => rfl
  | cons c s ih =>
    rw [List.flatMap_cons, List.append_assoc, readString_escapeChar_append, ih]
    rfl

/-- A text of newlines and printable ASCII characters. -/
def Printed (s : List Char) : Prop :=
  ∀ c ∈ s, c = '\n' ∨ 32 ≤ c.toNat ∧ c.toNat < 127

instance : DecidablePred Printed := fun s =>
  List.decidableBAll (fun c : Char => c = '\n' ∨ 32 ≤ c.toNat ∧ c.toNat < 127) s

/-- A further printed character. -/
theorem Printed.cons {c : Char} {s : List Char} (hc : c = '\n' ∨ 32 ≤ c.toNat ∧ c.toNat < 127)
    (hs : Printed s) : Printed (c :: s) :=
  List.forall_mem_cons.mpr ⟨hc, hs⟩

/-- Two printed texts. -/
theorem Printed.append {s t : List Char} (hs : Printed s) (ht : Printed t) : Printed (s ++ t) := by
  intro c hc
  exact (List.mem_append.mp hc).elim (hs c) (ht c)

/-- A digit is printable. -/
theorem toNat_hexDigit : ∀ n < 16, 32 ≤ (hexDigit n).toNat ∧ (hexDigit n).toNat < 127 := by
  decide

/-- The escape of a unit is printed. -/
theorem printed_escapeUnit (n : ℕ) : Printed (escapeUnit n) := by
  have hdigit (k : ℕ) : hexDigit (k % 16) = '\n' ∨
      32 ≤ (hexDigit (k % 16)).toNat ∧ (hexDigit (k % 16)).toNat < 127 :=
    Or.inr (toNat_hexDigit _ (Nat.mod_lt k (by decide)))
  have hnil : Printed [] := by decide
  refine .cons (by decide) (.cons (by decide) ?_)
  exact .cons (hdigit _) (.cons (hdigit _) (.cons (hdigit _) (.cons (hdigit _) hnil)))

/-- A written character is printed. -/
theorem printed_escapeChar (c : Char) : Printed (escapeChar c) := by
  have hnil : Printed [] := by decide
  obtain ⟨letter, hletter, hshort, _⟩ | ⟨hself, _, _, hprintable, hsmall⟩ | ⟨hunit, _⟩ |
    ⟨hpair, _⟩ := escapeChar_cases c
  · have hletters : Printed shortLetters := by decide
    rw [hshort]
    exact .cons (by decide) (.cons (hletters letter hletter) hnil)
  · rw [hself]
    exact .cons (Or.inr ⟨hprintable, hsmall⟩) hnil
  · rw [hunit]
    exact printed_escapeUnit _
  · rw [hpair]
    exact (printed_escapeUnit _).append (printed_escapeUnit _)

end DocAtlas.Json
