import DocAtlas.Proofs.Json.Values

/-!
# Members as they are written

A text may write a member of an object more than once. The members that are read from it are the
keyed list of the written ones: each name stands once, with its last value.
-/

namespace DocAtlas

namespace Keyed

variable {κ α : Type} [DecidableEq κ]

/-- Of pairs that are put one after the other the last one of a name counts, and what was there
before counts if there is none. -/
theorem lookup_foldl_put (name : κ) (pairs found : List (κ × α)) :
    (pairs.foldl (fun found (name, value) => put name value found) found).lookup name =
      (pairs.reverse.lookup name).or (found.lookup name) := by
  induction pairs generalizing found with
  | nil => rfl
  | cons first rest ih =>
    obtain ⟨known, value⟩ := first
    rw [List.foldl_cons, ih, List.reverse_cons, List.lookup_append, Option.or_assoc]
    congr 1
    by_cases h : name = known
    · rw [h, lookup_put_self]
      simp
    · have hne : (name == known) = false := beq_false_of_ne h
      rw [lookup_put_of_ne h]
      simp [List.lookup_cons, hne]

end Keyed

namespace Json

open DocAtlas.Text

/-- A text begins with members of an object, up to its closing brace. The members are listed as they
are written, with all repetitions. -/
inductive SpellsMembers : Nat → List Char → List (String × Json) → List Char → Prop where
  | last {bound : Nat} {s afterKey atValue afterValue rest : List Char} {key : List Letter}
      {name : String} {value : Json} (hkey : readString s = .ok (key, afterKey))
      (hname : (LooseString.mk key).mended = name) (hcolon : skipBlanks afterKey = ':' :: atValue)
      (hvalue : readValue bound (skipBlanks atValue) = .ok (value, afterValue))
      (hclose : skipBlanks afterValue = '\x7d' :: rest) :
      SpellsMembers (bound + 1) ('\x22' :: s) [(name, value)] rest
  | more {bound : Nat} {s afterKey atValue afterValue next rest : List Char} {key : List Letter}
      {name : String} {value : Json} {pairs : List (String × Json)}
      (hkey : readString s = .ok (key, afterKey)) (hname : (LooseString.mk key).mended = name)
      (hcolon : skipBlanks afterKey = ':' :: atValue)
      (hvalue : readValue bound (skipBlanks atValue) = .ok (value, afterValue))
      (hcomma : skipBlanks afterValue = ',' :: next)
      (hnext : SpellsMembers bound (skipBlanks next) pairs rest) :
      SpellsMembers (bound + 1) ('\x22' :: s) ((name, value) :: pairs) rest

/-- A text holds one object and nothing else but blanks, with its members as they are written. -/
inductive SpellsObject (text : String) : List (String × Json) → Prop where
  | empty {s rest : List Char} (hopen : skipBlanks text.toList = '\x7b' :: s)
      (hclose : skipBlanks s = '\x7d' :: rest) (hend : skipBlanks rest = []) : SpellsObject text []
  | members {s rest : List Char} {pairs : List (String × Json)}
      (hopen : skipBlanks text.toList = '\x7b' :: s)
      (hmembers : SpellsMembers text.toList.length (skipBlanks s) pairs rest)
      (hend : skipBlanks rest = []) : SpellsObject text pairs

variable {bound : Nat} {s rest : List Char} {found members : List (String × Json)}

/-- Members begin with the quote of a name. -/
theorem SpellsMembers.head?_eq {pairs : List (String × Json)} (h : SpellsMembers bound s pairs rest) :
    s.head? = some '\x22' := by
  cases h <;> rfl

/-- Members that are written are read by putting one after the other. -/
theorem readMembers_of_spellsMembers {pairs : List (String × Json)}
    (h : SpellsMembers bound s pairs rest) (found : List (String × Json)) :
    readMembers bound found s =
      .ok (pairs.foldl (fun found (name, value) => Keyed.put name value found) found, rest) := by
  induction h generalizing found with
  | last hkey hname hcolon hvalue hclose =>
    rw [readMembers]
    simp only [hkey, bind, Except.bind, hname, hcolon, hvalue, hclose, List.foldl_cons,
      List.foldl_nil]
  | more hkey hname hcolon hvalue hcomma _ ih =>
    rw [readMembers]
    simp only [hkey, bind, Except.bind, hname, hcolon, hvalue, hcomma, ih, List.foldl_cons]

/-- Members that are read are written. -/
theorem exists_spellsMembers_of_readMembers (h : readMembers bound found s = .ok (members, rest)) :
    ∃ pairs, SpellsMembers bound s pairs rest := by
  induction bound generalizing found s with
  | zero => cases h
  | succ bound ih =>
    unfold readMembers at h
    split at h
    · cases h
    · next s' hbound =>
      obtain rfl := Nat.succ.inj hbound
      cases hkey : readString s' with
      | error cause =>
        rw [hkey] at h
        cases h
      | ok read =>
        obtain ⟨key, afterKey⟩ := read
        simp only [hkey, bind, Except.bind] at h
        split at h
        · next atValue hcolon =>
          split at h
          · cases h
          · next read hvalue =>
            obtain ⟨value, afterValue⟩ := read
            split at h
            · next behind hcomma =>
              obtain ⟨pairs, hpairs⟩ := ih h
              exact ⟨_, .more hkey rfl hcolon hvalue hcomma hpairs⟩
            · next after hclose =>
              simp only [Except.ok.injEq, Prod.mk.injEq] at h
              exact ⟨_, .last hkey rfl hcolon hvalue (h.2 ▸ hclose)⟩
            · cases h
        · cases h
    · cases h

/-- A number is no object. -/
theorem readNumber_ne_obj (negative : Bool) (s : List Char) :
    readNumber negative s ≠ .ok (.obj members, rest) := by
  intro h
  cases hwhole : readWhole s with
  | error cause =>
    rw [readNumber, hwhole] at h
    cases h
  | ok read =>
    simp only [readNumber, hwhole, bind, Except.bind, integer] at h
    split at h
    · cases h
    · split at h
      · split at h
        · cases h
        · next heq =>
          split at heq
          · cases heq
          · cases heq
            cases h
      · cases h

/-- A word that is read is no object. -/
theorem readWord_ne_obj {word : List Char} {value : Json} (hvalue : ∀ members, value ≠ .obj members) :
    readWord word value s ≠ .ok (.obj members, rest) := by
  intro h
  rw [readWord] at h
  split at h
  · simp only [Except.ok.injEq, Prod.mk.injEq] at h
    exact hvalue members h.1
  · cases h

/-- What does not begin with an open brace is not read as an object. -/
theorem readValue_ne_obj {c : Char} (hbrace : c ≠ '\x7b') :
    readValue (bound + 1) (c :: s) ≠ .ok (.obj members, rest) := by
  intro h
  rw [readValue] at h
  by_cases hquote : c = '\x22'
  · rw [if_pos hquote] at h
    cases hread : readString s with
    | error cause =>
      rw [hread] at h
      cases h
    | ok read =>
      simp only [hread, bind, Except.bind, Except.ok.injEq, Prod.mk.injEq, ofLoose] at h
      split at h <;> cases h.1
  rw [if_neg hquote] at h
  by_cases hbracket : c = '['
  · rw [if_pos hbracket] at h
    split at h
    · cases h
    · cases hread : readItems bound (skipBlanks s) with
      | error cause =>
        rw [hread] at h
        cases h
      | ok read =>
        rw [hread] at h
        cases h
  rw [if_neg hbracket, if_neg hbrace] at h
  by_cases hn : c = 'n'
  · rw [if_pos hn] at h
    exact readWord_ne_obj (by simp) h
  rw [if_neg hn] at h
  by_cases ht : c = 't'
  · rw [if_pos ht] at h
    exact readWord_ne_obj (by simp) h
  rw [if_neg ht] at h
  by_cases hf : c = 'f'
  · rw [if_pos hf] at h
    exact readWord_ne_obj (by simp) h
  rw [if_neg hf] at h
  by_cases hN : c = 'N'
  · rw [if_pos hN] at h
    exact readWord_ne_obj (by simp) h
  rw [if_neg hN] at h
  by_cases hI : c = 'I'
  · rw [if_pos hI] at h
    exact readWord_ne_obj (by simp) h
  rw [if_neg hI] at h
  by_cases hminus : c = '-'
  · rw [if_pos hminus] at h
    by_cases hinfinite : s.head? = some 'I'
    · rw [if_pos hinfinite] at h
      exact readWord_ne_obj (by simp) h
    · rw [if_neg hinfinite] at h
      exact readNumber_ne_obj true s h
  · rw [if_neg hminus] at h
    exact readNumber_ne_obj false (c :: s) h

/-- A value that is read as an object begins with an open brace, followed by a closing one or by
members. -/
theorem of_readValue_eq_ok_obj (h : readValue (bound + 1) s = .ok (.obj members, rest)) :
    ∃ t, s = '\x7b' :: t ∧
      ((skipBlanks t = '\x7d' :: rest ∧ members = []) ∨
        readMembers bound [] (skipBlanks t) = .ok (members, rest)) := by
  cases s with
  | nil => cases h
  | cons c t =>
    by_cases hbrace : c = '\x7b'
    · subst hbrace
      refine ⟨t, rfl, ?_⟩
      rw [readValue, if_neg (by decide), if_neg (by decide), if_pos rfl] at h
      split at h
      · next hclose =>
        cases h
        exact Or.inl ⟨hclose, rfl⟩
      · cases hread : readMembers bound [] (skipBlanks t) with
        | error cause =>
          rw [hread] at h
          cases h
        | ok read =>
          rw [hread] at h
          cases h
          exact Or.inr rfl
    · exact absurd h (readValue_ne_obj hbrace)

/-- A text is read as an object exactly if it holds one, and the object has the last value of each
name that is written. -/
theorem read_eq_ok_obj_iff {text : String} :
    read text = .ok (.obj members) ↔
      ∃ pairs, SpellsObject text pairs ∧ members = Keyed.ofPairs pairs := by
  constructor
  · intro h
    cases hread : readValue (text.toList.length + 1) (skipBlanks text.toList) with
    | error cause =>
      simp only [read, hread, bind, Except.bind] at h
      cases h
    | ok found =>
      obtain ⟨value, rest⟩ := found
      simp only [read, hread, bind, Except.bind] at h
      split at h
      · next hend =>
        obtain rfl := Except.ok.inj h
        rw [List.isEmpty_iff] at hend
        obtain ⟨t, hopen, ⟨hclose, rfl⟩ | hmembers⟩ := of_readValue_eq_ok_obj hread
        · exact ⟨[], .empty hopen hclose hend, rfl⟩
        · obtain ⟨pairs, hpairs⟩ := exists_spellsMembers_of_readMembers hmembers
          rw [readMembers_of_spellsMembers hpairs] at hmembers
          cases hmembers
          exact ⟨pairs, .members hopen hpairs hend, rfl⟩
      · cases h
  · intro h
    obtain ⟨pairs, hpairs, rfl⟩ := h
    have hread : ∃ rest, skipBlanks rest = [] ∧
        readValue (text.toList.length + 1) (skipBlanks text.toList) =
          .ok (.obj (Keyed.ofPairs pairs), rest) := by
      cases hpairs with
      | empty hopen hclose hend =>
        refine ⟨_, hend, ?_⟩
        rw [hopen, readValue, if_neg (by decide), if_neg (by decide), if_pos rfl, hclose]
        rfl
      | members hopen hmembers hend =>
        refine ⟨_, hend, ?_⟩
        rw [hopen]
        refine readValue_obj ?_ (readMembers_of_spellsMembers hmembers [])
        simp [hmembers.head?_eq]
    obtain ⟨rest, hend, hread⟩ := hread
    simp only [read, hread, bind, Except.bind, hend, List.isEmpty_nil, if_true]

end Json

end DocAtlas
