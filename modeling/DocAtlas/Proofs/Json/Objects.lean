import DocAtlas.Proofs.Json.Letters
import DocAtlas.Proofs.Json.Members
import DocAtlas.Proofs.Json.Numbers

/-!
# Objects are read after the grammar

A text that spells a value is read as that value, unless some integer in it has too many digits: then
reading ends with that. The argument is one induction over the parts of a text, in which the reader is
bounded by the length of what it has to read. In the other direction, whatever the reader takes spells
what it gives. So the objects that are read, with their members as they are written, are exactly those
of the grammar.
-/

namespace DocAtlas.Json

open DocAtlas.Text

/-! ## Blanks -/

/-- Blanks in front are skipped. -/
theorem Blanks.skipBlanks_append {before : List Char} (h : Blanks before) (s : List Char) :
    skipBlanks (before ++ s) = skipBlanks s := by
  refine List.dropWhile_append_of_pos fun c hc => ?_
  simpa [or_assoc] using h c hc

/-- Nothing is skipped in front of anything else. -/
theorem skipBlanks_cons {c : Char} (h : c ∉ [' ', '\t', '\n', '\r']) (s : List Char) :
    skipBlanks (c :: s) = c :: s := by
  refine List.dropWhile_cons_of_neg ?_
  simpa [and_assoc] using h

/-- What is skipped are blanks. -/
theorem exists_blanks (s : List Char) : ∃ before, Blanks before ∧ s = before ++ skipBlanks s := by
  refine ⟨_, fun c hc => ?_, List.takeWhile_append_dropWhile.symm⟩
  simpa [or_assoc] using List.mem_takeWhile_imp hc

/-! ## Parts that are read -/

/-- What follows an item or a member: a comma, a closing bracket or a closing brace. -/
def Closes (rest : List Char) : Prop :=
  ∃ c tail, rest = c :: tail ∧ c ∈ [',', ']', '\x7d']

/-- What follows an item is not skipped. -/
theorem Closes.skipBlanks_eq {rest : List Char} (h : Closes rest) : skipBlanks rest = rest := by
  obtain ⟨c, tail, rfl, hc⟩ := h
  have hcloses : ∀ c ∈ [',', ']', '\x7d'], c ∉ [' ', '\t', '\n', '\r'] := by simp
  exact skipBlanks_cons (hcloses c hc) tail

/-- A value may be followed by blanks and by what follows an item. -/
theorem Closes.ends {after rest : List Char} (h : Closes rest) (hafter : Blanks after) :
    Ends (after ++ rest) := by
  intro c hc
  cases after with
  | nil =>
    obtain ⟨_, tail, rfl, hmem⟩ := h
    obtain rfl := Option.some.inj hc
    exact List.mem_append_right [' ', '\t', '\n', '\r'] hmem
  | cons first after =>
    obtain rfl := Option.some.inj hc
    exact List.mem_append_left [',', ']', '\x7d'] (hafter first List.mem_cons_self)

/-- How a part begins that is in its place. -/
def Begins : Part → List Char → Prop
  | .value _, s => ∃ c tail, s = c :: tail ∧ c ∉ [' ', '\t', '\n', '\r', ']']
  | .item _, s | .items _, s => ∀ rest, ∃ c tail, skipBlanks (s ++ rest) = c :: tail ∧ c ≠ ']'
  | .member .., s | .members _, s => ∀ rest, ∃ tail, skipBlanks (s ++ rest) = '\x22' :: tail

/-- A number begins with its sign or with a digit. -/
theorem IsWhole.exists_first {whole : List Char} (h : IsWhole whole) (negative : Bool)
    (rest : List Char) :
    ∃ c tail, signOf negative ++ (whole ++ rest) = c :: tail ∧ c ∈ '-' :: "0123456789".toList := by
  cases negative with
  | true => exact ⟨'-', _, rfl, by decide⟩
  | false =>
    obtain ⟨c, tail, rfl⟩ := List.exists_cons_of_ne_nil h.1.1
    exact ⟨c, _, rfl, List.mem_cons_of_mem _ (h.1.2 c List.mem_cons_self)⟩

/-- A part begins in its place. -/
theorem Spells.begins {part : Part} {s : List Char} {long : Bool} (h : Spells part s long) :
    Begins part s := by
  have hfirst : ∀ c ∈ '-' :: "0123456789".toList, c ∉ [' ', '\t', '\n', '\r', ']'] := by simp
  induction h with
  | @word word _ hword =>
    have hwords : ∀ pair ∈ words, pair.1.head?.any (· ∉ [' ', '\t', '\n', '\r', ']']) := by decide
    have hhead := hwords _ hword
    rw [Option.any_eq_true] at hhead
    obtain ⟨c, hc, hplace⟩ := hhead
    obtain ⟨tail, htail⟩ := List.head?_eq_some_iff.mp hc
    exact ⟨c, tail, htail, of_decide_eq_true hplace⟩
  | string | emptyArray | array | emptyObject | object => exact ⟨_, _, rfl, by decide⟩
  | integer negative hwhole =>
    obtain ⟨c, tail, heq, hc⟩ := hwhole.exists_first negative []
    rw [List.append_nil] at heq
    exact ⟨c, tail, heq, hfirst c hc⟩
  | real negative hwhole =>
    obtain ⟨c, tail, heq, hc⟩ := hwhole.exists_first negative _
    exact ⟨c, tail, heq, hfirst c hc⟩
  | item hbefore _ _ ih =>
    intro rest
    obtain ⟨c, tail, rfl, hc⟩ := ih
    rw [List.append_assoc, hbefore.skipBlanks_append, List.cons_append, List.cons_append,
      skipBlanks_cons (fun hblank => hc (List.mem_append_left [']'] hblank))]
    exact ⟨c, _, rfl, fun hbracket => hc (by simp [hbracket])⟩
  | lastItem _ ih => exact ih
  | moreItems _ _ ih =>
    intro rest
    rw [List.append_assoc]
    exact ih _
  | member hbefore =>
    intro rest
    rw [List.append_assoc, hbefore.skipBlanks_append]
    exact ⟨_, rfl⟩
  | lastMember _ ih => exact ih
  | moreMembers _ _ ih =>
    intro rest
    rw [List.append_assoc]
    exact ih _

/-- A value is not skipped. -/
theorem Spells.skipBlanks_append {s : List Char} {value : Json} {long : Bool}
    (h : Spells (.value value) s long) (rest : List Char) : skipBlanks (s ++ rest) = s ++ rest := by
  obtain ⟨c, tail, rfl, hc⟩ := h.begins
  exact skipBlanks_cons (fun hblank => hc (List.mem_append_left [']'] hblank)) _

/-! ## A text after the grammar is read -/

/-- A member opens with its name and a colon. -/
def Opens (s : List Char) (name : String) (atValue : List Char) : Prop :=
  ∃ t letters behind, s = '\x22' :: t ∧ readString t = .ok (letters, behind) ∧
    (LooseString.mk letters).mended = name ∧ skipBlanks behind = ':' :: atValue

/-- A part is read as what it spells, if the reader may go as deep as the text is long. -/
def IsRead : Part → List Char → Bool → Prop
  | .value value, s, long => ∀ bound rest, s.length ≤ bound → Ends rest →
      readValue bound (s ++ rest) = outcome long (value, rest)
  | .item value, s, long => ∀ bound rest, s.length ≤ bound → Closes rest → ∃ after,
      readValue bound (skipBlanks (s ++ rest)) = outcome long (value, after) ∧
        skipBlanks after = rest
  | .items values, s, long => ∀ bound rest, s.length < bound →
      readItems bound (skipBlanks (s ++ ']' :: rest)) = outcome long (values, rest)
  | .member name value, s, long => ∀ bound rest, s.length ≤ bound → Closes rest →
      ∃ atValue after, Opens (skipBlanks (s ++ rest)) name atValue ∧
        readValue bound (skipBlanks atValue) = outcome long (value, after) ∧
        skipBlanks after = rest
  | .members pairs, s, long => ∀ bound rest, s.length < bound →
      (long = false → SpellsMembers bound (skipBlanks (s ++ '\x7d' :: rest)) pairs rest) ∧
      (long = true → ∀ found,
        readMembers bound found (skipBlanks (s ++ '\x7d' :: rest)) = .error .integerTooLong)

/-- A word is read. -/
theorem readValue_word {word : List Char} {value : Json} (h : (word, value) ∈ words) (bound : ℕ)
    (rest : List Char) : readValue (bound + 1) (word ++ rest) = .ok (value, rest) := by
  simp only [words, List.mem_cons, Prod.mk.injEq, List.not_mem_nil, or_false] at h
  rcases h with ⟨rfl, rfl⟩ | ⟨rfl, rfl⟩ | ⟨rfl, rfl⟩ | ⟨rfl, rfl⟩ | ⟨rfl, rfl⟩ | ⟨rfl, rfl⟩ <;> rfl

/-- A number is read from its sign on. -/
theorem readValue_number {whole : List Char} (h : IsWhole whole) (negative : Bool) (bound : ℕ)
    (rest : List Char) :
    readValue (bound + 1) (signOf negative ++ (whole ++ rest)) =
      readNumber negative (whole ++ rest) := by
  obtain ⟨c, tail, rfl⟩ := List.exists_cons_of_ne_nil h.1.1
  have hc := h.1.2 c List.mem_cons_self
  cases negative with
  | true =>
    have hc : c ≠ 'I' := fun heq => absurd (heq ▸ hc) (by decide)
    change (if (c :: (tail ++ rest)).head? = some 'I' then _ else _) = _
    rw [if_neg (by simpa using hc)]
    rfl
  | false =>
    have hother : ∀ c ∈ "0123456789".toList,
        c ∉ ['\x22', '[', '\x7b', 'n', 't', 'f', 'N', 'I', '-'] := by simp
    have hc := hother c hc
    simp only [List.mem_cons, List.not_mem_nil, or_false, not_or] at hc
    change readValue (bound + 1) (c :: (tail ++ rest)) = _
    rw [readValue]
    simp only [hc, if_false]
    rfl

section

variable {bound : ℕ} {s rest after next : List Char} {value : Json} {long later : Bool}

/-- The last item is read. -/
theorem readItems_close (hvalue : readValue bound s = outcome long (value, after))
    (hafter : skipBlanks after = ']' :: rest) :
    readItems (bound + 1) s = outcome long ([value], rest) := by
  cases long with
  | true => simp only [readItems, hvalue, outcome, if_true, bind, Except.bind]
  | false => exact readItems_last hvalue hafter

/-- An item is read, and after it those behind the comma. -/
theorem readItems_comma {values : List Json}
    (hvalue : readValue bound s = outcome long (value, after)) (hafter : skipBlanks after = ',' :: next)
    (hnext : readItems bound (skipBlanks next) = outcome later (values, rest)) :
    readItems (bound + 1) s = outcome (long || later) (value :: values, rest) := by
  cases long with
  | true => simp only [readItems, hvalue, outcome, Bool.true_or, if_true, bind, Except.bind]
  | false =>
    cases later with
    | true =>
      simp only [readItems, hvalue, hafter, hnext, outcome, Bool.or_true, if_true, bind, Except.bind,
        if_neg Bool.false_ne_true]
    | false => exact readItems_cons hvalue hafter hnext

/-- An array is read with its items. -/
theorem readValue_brackets {values : List Json} (hhead : (skipBlanks s).head? ≠ some ']')
    (hitems : readItems bound (skipBlanks s) = outcome long (values, rest)) :
    readValue (bound + 1) ('[' :: s) = outcome long (.arr values, rest) := by
  cases long with
  | false => exact readValue_arr hhead hitems
  | true =>
    rw [readValue, if_neg (by decide), if_pos rfl]
    split
    · next heq => simp [heq] at hhead
    · rw [hitems]
      rfl

/-- An object is read with its members. -/
theorem readValue_braces {members : List (String × Json)} (hhead : (skipBlanks s).head? ≠ some '\x7d')
    (hmembers : readMembers bound [] (skipBlanks s) = outcome long (members, rest)) :
    readValue (bound + 1) ('\x7b' :: s) = outcome long (.obj members, rest) := by
  cases long with
  | false => exact readValue_obj hhead hmembers
  | true =>
    rw [readValue, if_neg (by decide), if_neg (by decide), if_pos rfl]
    split
    · next heq => simp [heq] at hhead
    · rw [hmembers]
      rfl

variable {name : String} {atValue : List Char}

/-- Members are not read if the value of the first one is not. -/
theorem Opens.readMembers_error (h : Opens s name atValue)
    (hvalue : readValue bound (skipBlanks atValue) = .error .integerTooLong)
    (found : List (String × Json)) : readMembers (bound + 1) found s = .error .integerTooLong := by
  obtain ⟨t, letters, behind, rfl, hkey, _, hcolon⟩ := h
  simp only [readMembers, hkey, hcolon, hvalue, bind, Except.bind]

/-- Behind a member and a comma the next members are read. -/
theorem Opens.readMembers_comma (h : Opens s name atValue)
    (hvalue : readValue bound (skipBlanks atValue) = .ok (value, after))
    (hafter : skipBlanks after = ',' :: next) (found : List (String × Json)) :
    readMembers (bound + 1) found s =
      readMembers bound (Keyed.put name value found) (skipBlanks next) := by
  obtain ⟨t, letters, behind, rfl, hkey, rfl, hcolon⟩ := h
  simp only [readMembers, hkey, hcolon, hvalue, hafter, bind, Except.bind]

end

/-- A text after the grammar is read as what it spells. -/
theorem Spells.isRead {part : Part} {s : List Char} {long : Bool} (h : Spells part s long) :
    IsRead part s long := by
  have hsucc {n bound : ℕ} (hbound : n + 1 ≤ bound) : ∃ smaller, bound = smaller + 1 :=
    ⟨bound - 1, by omega⟩
  induction h with
  | @word word value hword =>
    intro bound rest hbound _
    obtain ⟨c, tail, rfl, _⟩ := (Spells.word hword).begins
    obtain ⟨bound, rfl⟩ := hsucc hbound
    exact readValue_word hword bound rest
  | string hletters =>
    intro bound rest hbound _
    obtain ⟨bound, rfl⟩ := hsucc hbound
    rw [List.cons_append, List.append_assoc, readValue, if_pos rfl, List.singleton_append,
      hletters.readString]
    rfl
  | integer negative hwhole =>
    intro bound rest hbound hrest
    obtain ⟨c, tail, heq, _⟩ := (Spells.integer negative hwhole).begins
    rw [heq] at hbound
    obtain ⟨bound, rfl⟩ := hsucc hbound
    rw [List.append_assoc, readValue_number hwhole, readNumber_integer negative hwhole hrest]
  | real negative hwhole hfraction hexponent hreal =>
    intro bound rest hbound hrest
    obtain ⟨c, tail, heq, _⟩ := (Spells.real negative hwhole hfraction hexponent hreal).begins
    rw [heq] at hbound
    obtain ⟨bound, rfl⟩ := hsucc hbound
    rw [List.append_assoc, List.append_assoc, List.append_assoc, readValue_number hwhole,
      readNumber_real negative hwhole hfraction hexponent hreal hrest]
    rfl
  | emptyArray hblanks =>
    intro bound rest hbound _
    obtain ⟨bound, rfl⟩ := hsucc hbound
    have hskip : skipBlanks (_ ++ ']' :: rest) = ']' :: rest := hblanks.skipBlanks_append _
    rw [List.cons_append, List.append_assoc, readValue, if_neg (by decide), if_pos rfl,
      List.singleton_append, hskip]
    rfl
  | array h ih =>
    intro bound rest hbound _
    obtain ⟨bound, rfl⟩ := hsucc hbound
    obtain ⟨c, tail, hbegin, hc⟩ := h.begins (']' :: rest)
    rw [List.cons_append, List.append_assoc, List.singleton_append]
    refine readValue_brackets (by simpa [hbegin] using hc) (ih bound rest ?_)
    rw [List.length_cons, List.length_append, List.length_singleton] at hbound
    omega
  | emptyObject hblanks =>
    intro bound rest hbound _
    obtain ⟨bound, rfl⟩ := hsucc hbound
    have hskip : skipBlanks (_ ++ '\x7d' :: rest) = '\x7d' :: rest := hblanks.skipBlanks_append _
    rw [List.cons_append, List.append_assoc, readValue, if_neg (by decide), if_neg (by decide),
      if_pos rfl, List.singleton_append, hskip]
    rfl
  | @object _ _ long h ih =>
    intro bound rest hbound _
    obtain ⟨bound, rfl⟩ := hsucc hbound
    obtain ⟨tail, hbegin⟩ := h.begins ('\x7d' :: rest)
    rw [List.length_cons, List.length_append, List.length_singleton] at hbound
    obtain ⟨hshort, hlong⟩ := ih bound rest (by omega)
    rw [List.cons_append, List.append_assoc, List.singleton_append]
    refine readValue_braces (by simp [hbegin]) ?_
    cases long with
    | true => exact hlong rfl []
    | false => exact readMembers_of_spellsMembers (hshort rfl) []
  | item hbefore h hafter ih =>
    intro bound rest hbound hrest
    rw [List.length_append, List.length_append] at hbound
    refine ⟨_, ?_, (hafter.skipBlanks_append rest).trans hrest.skipBlanks_eq⟩
    rw [List.append_assoc, hbefore.skipBlanks_append, List.append_assoc, h.skipBlanks_append]
    exact ih bound _ (by omega) (hrest.ends hafter)
  | lastItem _ ih =>
    intro bound rest hbound
    obtain ⟨bound, rfl⟩ := hsucc hbound
    obtain ⟨after, hvalue, hafter⟩ := ih bound (']' :: rest) (by omega) ⟨_, _, rfl, by decide⟩
    exact readItems_close hvalue hafter
  | @moreItems _ t _ _ _ _ _ _ ih ihRest =>
    intro bound rest hbound
    obtain ⟨bound, rfl⟩ := hsucc hbound
    rw [List.length_append, List.length_cons] at hbound
    rw [List.append_assoc, List.cons_append]
    obtain ⟨after, hvalue, hafter⟩ := ih bound (',' :: (t ++ ']' :: rest)) (by omega)
      ⟨_, _, rfl, by decide⟩
    exact readItems_comma hvalue hafter (ihRest bound rest (by omega))
  | @member _ key behind s letters _ _ hbefore hkey hbehind _ ih =>
    intro bound rest hbound hrest
    simp only [List.length_append, List.length_cons] at hbound
    obtain ⟨after, hvalue, hafter⟩ := ih bound rest (by omega) hrest
    have hskip : skipBlanks (behind ++ ':' :: (s ++ rest)) = ':' :: (s ++ rest) :=
      hbehind.skipBlanks_append _
    refine ⟨s ++ rest, after, ⟨key ++ '\x22' :: (behind ++ ':' :: (s ++ rest)), letters, _, ?_,
      hkey.readString _, rfl, hskip⟩, hvalue, hafter⟩
    rw [List.append_assoc, hbefore.skipBlanks_append, List.cons_append, List.append_assoc,
      List.cons_append, List.append_assoc, List.cons_append]
    rfl
  | lastMember _ ih =>
    intro bound rest hbound
    obtain ⟨bound, rfl⟩ := hsucc hbound
    obtain ⟨atValue, after, hopens, hvalue, hafter⟩ := ih bound ('\x7d' :: rest) (by omega)
      ⟨_, _, rfl, by decide⟩
    constructor
    · rintro rfl
      obtain ⟨t, letters, behind, heq, hkey, hname, hcolon⟩ := hopens
      rw [heq]
      exact .last hkey hname hcolon hvalue hafter
    · rintro rfl
      exact hopens.readMembers_error hvalue
  | @moreMembers _ t _ _ _ long _ _ _ ih ihRest =>
    intro bound rest hbound
    obtain ⟨bound, rfl⟩ := hsucc hbound
    rw [List.length_append, List.length_cons] at hbound
    rw [List.append_assoc, List.cons_append]
    obtain ⟨atValue, after, hopens, hvalue, hafter⟩ := ih bound (',' :: (t ++ '\x7d' :: rest))
      (by omega) ⟨_, _, rfl, by decide⟩
    obtain ⟨hshort, hlong⟩ := ihRest bound rest (by omega)
    cases long with
    | true =>
      rw [Bool.true_or]
      exact ⟨fun hnever => Bool.noConfusion hnever, fun _ => hopens.readMembers_error hvalue⟩
    | false =>
      rw [Bool.false_or]
      refine ⟨fun hlater => ?_, fun hlater found => ?_⟩
      · obtain ⟨t, letters, behind, heq, hkey, hname, hcolon⟩ := hopens
        rw [heq]
        exact .more hkey hname hcolon hvalue hafter (hshort hlater)
      · rw [hopens.readMembers_comma hvalue hafter]
        exact hlong hlater _

/-! ## What is read follows the grammar -/

/-- What is read as a word is that word. -/
theorem of_readWord {word s rest : List Char} {value found : Json}
    (h : readWord word value s = .ok (found, rest)) : found = value ∧ s = word ++ rest := by
  rw [readWord] at h
  split at h
  · next hword =>
    cases h
    obtain ⟨tail, rfl⟩ := List.isPrefixOf_iff_prefix.mp hword
    rw [List.drop_left]
    exact ⟨rfl, rfl⟩
  · cases h

/-- More blanks may stand in front of an item. -/
theorem Spells.blanks_item {before s : List Char} {value : Json} {long : Bool}
    (hbefore : Blanks before) (h : Spells (.item value) s long) :
    Spells (.item value) (before ++ s) long := by
  cases h with
  | item hinner hvalue hafter =>
    rw [← List.append_assoc]
    exact .item (List.forall_mem_append.mpr ⟨hbefore, hinner⟩) hvalue hafter

/-- More blanks may stand in front of items. -/
theorem Spells.blanks_items {before s : List Char} {values : List Json} {long : Bool}
    (hbefore : Blanks before) (h : Spells (.items values) s long) :
    Spells (.items values) (before ++ s) long := by
  cases h with
  | lastItem h => exact .lastItem (h.blanks_item hbefore)
  | moreItems h hrest =>
    rw [← List.append_assoc]
    exact .moreItems (h.blanks_item hbefore) hrest

/-- More blanks may stand in front of a member. -/
theorem Spells.blanks_member {before s : List Char} {name : String} {value : Json} {long : Bool}
    (hbefore : Blanks before) (h : Spells (.member name value) s long) :
    Spells (.member name value) (before ++ s) long := by
  cases h with
  | member hinner hkey hbehind hvalue =>
    rw [← List.append_assoc]
    exact .member (List.forall_mem_append.mpr ⟨hbefore, hinner⟩) hkey hbehind hvalue

/-- More blanks may stand in front of members. -/
theorem Spells.blanks_members {before s : List Char} {pairs : List (String × Json)} {long : Bool}
    (hbefore : Blanks before) (h : Spells (.members pairs) s long) :
    Spells (.members pairs) (before ++ s) long := by
  cases h with
  | lastMember h => exact .lastMember (h.blanks_member hbefore)
  | moreMembers h hrest =>
    rw [← List.append_assoc]
    exact .moreMembers (h.blanks_member hbefore) hrest

/-- What is read up to a bound follows the grammar. -/
structure Follows (bound : ℕ) : Prop where
  value : ∀ {s rest : List Char} {value : Json}, readValue bound s = .ok (value, rest) →
    ∃ t, s = t ++ rest ∧ Spells (.value value) t false
  items : ∀ {s rest : List Char} {values : List Json}, readItems bound s = .ok (values, rest) →
    ∃ t, s = t ++ ']' :: rest ∧ Spells (.items values) t false
  members : ∀ {s rest : List Char} {pairs : List (String × Json)},
    SpellsMembers bound s pairs rest → ∃ t, s = t ++ '\x7d' :: rest ∧ Spells (.members pairs) t false

/-- A string that is read follows the grammar. -/
theorem of_readValue_quote {bound : ℕ} {s rest : List Char} {value : Json}
    (hread : readValue (bound + 1) ('\x22' :: s) = .ok (value, rest)) :
    ∃ t, '\x22' :: s = t ++ rest ∧ Spells (.value value) t false := by
  rw [readValue, if_pos rfl] at hread
  cases hstring : readString s with
  | error cause =>
    rw [hstring] at hread
    cases hread
  | ok found =>
    obtain ⟨letters, behind⟩ := found
    rw [hstring] at hread
    cases hread
    obtain ⟨body, rfl, hletters⟩ := exists_spellsLetters hstring
    exact ⟨_, by simp, .string hletters⟩

/-- An array that is read follows the grammar, if its items do. -/
theorem Follows.array {bound : ℕ} (h : Follows bound) {s rest : List Char} {value : Json}
    (hread : readValue (bound + 1) ('[' :: s) = .ok (value, rest)) :
    ∃ t, '[' :: s = t ++ rest ∧ Spells (.value value) t false := by
  obtain ⟨before, hbefore, hs⟩ := exists_blanks s
  rw [readValue, if_neg (by decide), if_pos rfl] at hread
  split at hread
  · next heq =>
    cases hread
    refine ⟨_, ?_, .emptyArray hbefore⟩
    rw [heq] at hs
    simp [hs]
  · cases hitems : readItems bound (skipBlanks s) with
    | error cause =>
      rw [hitems] at hread
      cases hread
    | ok found =>
      rw [hitems] at hread
      cases hread
      obtain ⟨t, ht, hspells⟩ := h.items hitems
      refine ⟨_, ?_, .array (hspells.blanks_items hbefore)⟩
      rw [ht] at hs
      simp [hs]

/-- An object that is read follows the grammar, if its members do. -/
theorem Follows.object {bound : ℕ} (h : Follows bound) {s rest : List Char} {value : Json}
    (hread : readValue (bound + 1) ('\x7b' :: s) = .ok (value, rest)) :
    ∃ t, '\x7b' :: s = t ++ rest ∧ Spells (.value value) t false := by
  obtain ⟨before, hbefore, hs⟩ := exists_blanks s
  rw [readValue, if_neg (by decide), if_neg (by decide), if_pos rfl] at hread
  split at hread
  · next heq =>
    cases hread
    refine ⟨_, ?_, .emptyObject hbefore⟩
    rw [heq] at hs
    simp [hs]
  · cases hmembers : readMembers bound [] (skipBlanks s) with
    | error cause =>
      rw [hmembers] at hread
      cases hread
    | ok found =>
      rw [hmembers] at hread
      cases hread
      obtain ⟨pairs, hpairs⟩ := exists_spellsMembers_of_readMembers hmembers
      have hfound := hmembers.symm.trans (readMembers_of_spellsMembers hpairs [])
      obtain ⟨t, ht, hspells⟩ := h.members hpairs
      rw [(Prod.mk.inj (Except.ok.inj hfound)).1]
      refine ⟨_, ?_, .object (hspells.blanks_members hbefore)⟩
      rw [ht] at hs
      simp [hs]

/-- A value that is read follows the grammar, if what is inside it does. -/
theorem Follows.readValue {bound : ℕ} (h : Follows bound) {s rest : List Char} {value : Json}
    (hread : readValue (bound + 1) s = .ok (value, rest)) :
    ∃ t, s = t ++ rest ∧ Spells (.value value) t false := by
  have hword {word s : List Char} {meaning : Json} (hmem : (word, meaning) ∈ words)
      (hread : readWord word meaning s = .ok (value, rest)) :
      ∃ t, s = t ++ rest ∧ Spells (.value value) t false := by
    obtain ⟨rfl, rfl⟩ := of_readWord hread
    exact ⟨word, rfl, .word hmem⟩
  cases s with
  | nil => cases hread
  | cons c s =>
    by_cases hquote : c = '\x22'
    · subst hquote
      exact of_readValue_quote hread
    by_cases hbracket : c = '['
    · subst hbracket
      exact h.array hread
    by_cases hbrace : c = '\x7b'
    · subst hbrace
      exact h.object hread
    rw [Json.readValue, if_neg hquote, if_neg hbracket, if_neg hbrace] at hread
    split at hread
    · exact hword (by simp [words]) hread
    split at hread
    · exact hword (by simp [words]) hread
    split at hread
    · exact hword (by simp [words]) hread
    split at hread
    · exact hword (by simp [words]) hread
    split at hread
    · exact hword (by simp [words]) hread
    split at hread
    · next hc =>
      subst hc
      split at hread
      · obtain ⟨rfl, rfl⟩ := of_readWord hread
        exact ⟨'-' :: "Infinity".toList, rfl, .word (by simp [words])⟩
      · obtain ⟨t, rfl, hspells⟩ := exists_spells_of_readNumber hread
        exact ⟨_, rfl, hspells⟩
    · exact exists_spells_of_readNumber hread

/-- An item that is read follows the grammar, up to what is not blank behind it. -/
theorem Follows.item {bound : ℕ} (h : Follows bound) {s after : List Char} {value : Json}
    (hread : Json.readValue bound s = .ok (value, after)) :
    ∃ t, s = t ++ skipBlanks after ∧ Spells (.item value) t false := by
  obtain ⟨t, rfl, hvalue⟩ := h.value hread
  obtain ⟨behind, hbehind, hafter⟩ := exists_blanks after
  refine ⟨t ++ behind, ?_, .item (List.forall_mem_nil _) hvalue hbehind⟩
  rw [List.append_assoc, ← hafter]

/-- A member that is read follows the grammar, up to what is not blank behind it. -/
theorem Follows.member {bound : ℕ} (h : Follows bound) {s afterKey atValue after : List Char}
    {letters : List Letter} {name : String} {value : Json}
    (hkey : readString s = .ok (letters, afterKey)) (hname : (LooseString.mk letters).mended = name)
    (hcolon : skipBlanks afterKey = ':' :: atValue)
    (hread : Json.readValue bound (skipBlanks atValue) = .ok (value, after)) :
    ∃ t, '\x22' :: s = t ++ skipBlanks after ∧ Spells (.member name value) t false := by
  obtain ⟨body, rfl, hletters⟩ := exists_spellsLetters hkey
  obtain ⟨behind, hbehind, hafterKey⟩ := exists_blanks afterKey
  obtain ⟨before, hbefore, hatValue⟩ := exists_blanks atValue
  obtain ⟨t, ht, hitem⟩ := h.item hread
  subst hname
  refine ⟨_, ?_, .member (List.forall_mem_nil _) hletters hbehind (hitem.blanks_item hbefore)⟩
  rw [hcolon, hatValue, ht] at hafterKey
  simp [hafterKey]

/-- Whatever is read follows the grammar. -/
theorem follows (bound : ℕ) : Follows bound := by
  induction bound with
  | zero => exact ⟨fun h => (nomatch h), fun h => (nomatch h), fun h => (nomatch h)⟩
  | succ bound ih =>
    refine ⟨ih.readValue, ?_, ?_⟩
    · intro s rest values h
      rw [readItems] at h
      cases hread : Json.readValue bound s with
      | error cause =>
        rw [hread] at h
        cases h
      | ok found =>
        obtain ⟨value, after⟩ := found
        obtain ⟨t, rfl, hitem⟩ := ih.item hread
        simp only [hread, bind, Except.bind] at h
        split at h
        · next next hcomma =>
          obtain ⟨before, hbefore, hnext⟩ := exists_blanks next
          split at h
          · cases h
          · next found hitems =>
            cases h
            obtain ⟨u, hu, hrest⟩ := ih.items hitems
            refine ⟨_, ?_, .moreItems hitem (hrest.blanks_items hbefore)⟩
            rw [hu] at hnext
            simp [hcomma, hnext]
        · next hclose =>
          cases h
          exact ⟨t, by rw [hclose], .lastItem hitem⟩
        · cases h
    · intro s rest pairs h
      cases h with
      | last hkey hname hcolon hvalue hclose =>
        obtain ⟨t, ht, hmember⟩ := ih.member hkey hname hcolon hvalue
        exact ⟨t, by rw [ht, hclose], .lastMember hmember⟩
      | @more _ _ _ _ _ next _ _ _ _ _ hkey hname hcolon hvalue hcomma hnext =>
        obtain ⟨t, ht, hmember⟩ := ih.member hkey hname hcolon hvalue
        obtain ⟨u, hu, hrest⟩ := ih.members hnext
        obtain ⟨before, hbefore, heq⟩ := exists_blanks next
        refine ⟨_, ?_, .moreMembers hmember (hrest.blanks_members hbefore)⟩
        rw [hu] at heq
        simp [ht, hcomma, heq]

/-! ## Objects -/

/-- Nothing but blanks is left if nothing is left behind them. -/
theorem blanks_iff {s : List Char} : Blanks s ↔ skipBlanks s = [] := by
  constructor
  · intro h
    have hskip := h.skipBlanks_append []
    rwa [List.append_nil] at hskip
  · intro h
    obtain ⟨before, hbefore, hs⟩ := exists_blanks s
    rw [h, List.append_nil] at hs
    rwa [hs]

/-- Behind the blanks an object begins with its open brace. -/
theorem Blanks.skipBlanks_object {text : String} {before rest : List Char} (h : Blanks before)
    (htext : text.toList = before ++ '\x7b' :: rest) : skipBlanks text.toList = '\x7b' :: rest := by
  rw [htext, h.skipBlanks_append]
  rfl

/-- What stands between the braces is shorter than the text. -/
theorem length_lt_of_braces {text : String} {before s after : List Char}
    (htext : text.toList = before ++ '\x7b' :: (s ++ '\x7d' :: after)) :
    s.length < text.toList.length := by
  rw [htext]
  simp only [List.length_append, List.length_cons]
  omega

/-- The objects that are read, with their members as they are written, are those of the grammar. -/
theorem spellsObject_iff {text : String} {pairs : List (String × Json)} :
    SpellsObject text pairs ↔ HoldsObject text pairs false := by
  constructor
  · intro h
    obtain ⟨before, hbefore, htext⟩ := exists_blanks text.toList
    cases h with
    | @empty s rest hopen hclose hend =>
      obtain ⟨inside, hinside, hs⟩ := exists_blanks s
      rw [hclose] at hs
      rw [hopen, hs] at htext
      exact ⟨before, inside, rest, hbefore, .empty hinside, blanks_iff.mpr hend, htext⟩
    | @members s rest _ hopen hmembers hend =>
      obtain ⟨inside, hinside, hs⟩ := exists_blanks s
      obtain ⟨t, ht, hspells⟩ := (follows _).members hmembers
      rw [ht, ← List.append_assoc] at hs
      rw [hopen, hs] at htext
      exact ⟨before, inside ++ t, rest, hbefore, .members (hspells.blanks_members hinside),
        blanks_iff.mpr hend, htext⟩
  · intro h
    obtain ⟨before, s, after, hbefore, hinside, hafter, htext⟩ := h
    have hopen := hbefore.skipBlanks_object htext
    have hend := blanks_iff.mp hafter
    cases hinside with
    | empty hblanks => exact .empty hopen (hblanks.skipBlanks_append _) hend
    | members hspells =>
      exact .members hopen ((hspells.isRead _ _ (length_lt_of_braces htext)).1 rfl) hend

/-- A text with an integer of too many digits is not read. -/
theorem read_of_long {text : String} {pairs : List (String × Json)} (h : HoldsObject text pairs true) :
    read text = .error .integerTooLong := by
  obtain ⟨before, s, after, hbefore, hinside, hafter, htext⟩ := h
  cases hinside with
  | members hspells =>
    have hmembers := (hspells.isRead _ after (length_lt_of_braces htext)).2 rfl []
    obtain ⟨tail, hbegin⟩ := hspells.begins ('\x7d' :: after)
    have hread : readValue (text.toList.length + 1) (skipBlanks text.toList) =
        outcome true (.obj pairs, after) := by
      rw [hbefore.skipBlanks_object htext]
      exact readValue_braces (by simp [hbegin]) hmembers
    simp only [read, hread, outcome, if_true, bind, Except.bind]

end DocAtlas.Json
