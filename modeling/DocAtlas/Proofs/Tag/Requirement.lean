import DocAtlas.Proofs.Text.Cut
import DocAtlas.Proofs.Text.Trim
import DocAtlas.Tag.Requirement

/-!
# What is left of a required value

A value that mentions the documentation of the platform is read as a link: its name stands behind the
first bar, its address behind the opening of a link. A reference to a module has its name behind the
first colon. If nothing stands there, neither a name nor a description is left. Any other value is
kept as a whole.

Which bar and which opening come first does not matter: where nothing but blanks and closing braces
follows a bar, no other bar and no opening can follow.
-/

namespace DocAtlas.Tag

open DocAtlas.Text

namespace Requirement

/-- The bar between the address of a link and its name. -/
def bar : List Char := " | ".toList

/-- The opening of a link. -/
def linkOpening : List Char := "\x7b@link ".toList

/-- Behind every bar there are only blanks and closing braces. -/
def Unnamed (value : List Char) : Prop :=
  ∀ front back, value = front ++ (bar ++ back) → ∀ c ∈ back, isBlank c = true ∨ c = '\x7d'

/-- Behind every opening of a link there are only blanks before a bar. -/
def Unaddressed (value : List Char) : Prop :=
  ∀ front back, value = front ++ (linkOpening ++ back) →
    ∃ blanks rest, (∀ c ∈ blanks, isBlank c = true) ∧ back = blanks ++ (bar ++ rest)

/-- The values of which nothing is left: those that mention the documentation of the platform, but
by no link with a name or an address, and references to a module that end with their colon. -/
inductive Loses (value : List Char) : Prop where
  | link (hdocs : platformDocs.toList <:+: value) (hname : Unnamed value)
      (haddress : Unaddressed value)
  | reference {kind : List Char} (hdocs : ¬platformDocs.toList <:+: value) (hcolon : ':' ∉ kind)
      (hmodule : "module".toList <:+: kind) (heq : value = kind ++ [':'])

variable {value : List Char}

/-- Nothing is made of an empty text only. -/
theorem ofChars?_eq_none_iff {s : List Char} : ofChars? s = none ↔ s = [] := by
  cases s <;> simp [ofChars?]

/-- A link has no name if it is unnamed. -/
theorem name_ofLink_eq_none_iff (id : String) : (ofLink id value).name = none ↔ Unnamed value := by
  rw [ofLink, ofChars?_eq_none_iff, trim_eq_nil_iff, Unnamed, bar, ← forall_mem_after_iff (by decide)]
  simp only [List.mem_filter, bne_iff_ne, and_imp]
  refine forall₂_congr fun c _ => ?_
  rw [← or_iff_not_imp_right]

/-- Behind an opening that is followed by blanks, a bar and an unnamed rest, there is no other one. -/
theorem eq_of_opening_eq {before blanks rest front back : List Char}
    (hblanks : ∀ c ∈ blanks, isBlank c = true) (hrest : ∀ c ∈ rest, isBlank c = true ∨ c = '\x7d')
    (hbefore : before <+: front)
    (heq : before ++ (linkOpening ++ (blanks ++ (bar ++ rest))) = front ++ (linkOpening ++ back)) :
    back = blanks ++ (bar ++ rest) := by
  obtain ⟨more, rfl⟩ := hbefore
  rw [List.append_assoc, List.append_cancel_left_eq] at heq
  cases more with
  | nil => exact (List.append_cancel_left heq).symm
  | cons c more =>
    -- The brace of the other opening would stand among characters that are no such braces.
    have htail : "@link ".toList ++ (blanks ++ (bar ++ rest)) = more ++ (linkOpening ++ back) :=
      (List.cons.inj heq).2
    have hbrace : '\x7b' ∈ "@link ".toList ++ (blanks ++ (bar ++ rest)) := by
      rw [htail]
      exact List.mem_append_right _ (List.mem_append_left _ List.mem_cons_self)
    simp only [List.mem_append] at hbrace
    rcases hbrace with hlink | hblank | hbar | hback
    · exact absurd hlink (by decide)
    · exact absurd (hblanks _ hblank) (by decide)
    · exact absurd hbar (by decide)
    · exact absurd (hrest _ hback) (by decide)

/-- An unnamed link without surrounding blanks has no address if it is unaddressed. -/
theorem description_ofLink_eq_none_iff (id : String) (htrim : trim value = value)
    (hname : Unnamed value) : (ofLink id value).description = none ↔ Unaddressed value := by
  have hdescription : (ofLink id value).description =
      ofChars? (trim (Text.before bar (Text.after linkOpening value))) := rfl
  rw [hdescription, ofChars?_eq_none_iff, trim_eq_nil_iff, Text.after]
  cases hopening : cut? linkOpening value with
  | none =>
    have hnone := (cut?_eq_none_iff (by decide)).mp hopening
    refine iff_of_true (List.forall_mem_nil _) fun front back heq => absurd ?_ hnone
    exact ⟨front, back, by rw [heq, List.append_assoc]⟩
  | some found =>
    obtain ⟨front, back⟩ := found
    obtain ⟨heq, -⟩ := (cut?_eq_some_iff (by decide)).mp hopening
    dsimp only
    rw [Text.before]
    constructor
    · intro hblanks
      cases hbar : cut? bar back with
      | none =>
        -- Without a bar the value would end with the blank of the opening.
        rw [hbar] at hblanks
        have hend : value = (front ++ "\x7b@link".toList) ++ ' ' :: back := by
          rw [heq, List.append_assoc]
          rfl
        have hnil := eq_nil_of_forall_isBlank (hend ▸ htrim)
          (List.forall_mem_cons.mpr ⟨by decide, hblanks⟩)
        cases hnil
      | some found =>
        obtain ⟨blanks, rest⟩ := found
        rw [hbar] at hblanks
        obtain ⟨rfl, -⟩ := (cut?_eq_some_iff (by decide)).mp hbar
        have hrest := hname (front ++ (linkOpening ++ blanks)) rest (by simp [heq])
        intro other behind hother
        have hprefix := (isPrefix_of_cut?_eq_some (by decide) hopening hother).1
        exact ⟨blanks, rest, hblanks, eq_of_opening_eq hblanks hrest hprefix (heq.symm.trans hother)⟩
    · intro haddress
      obtain ⟨blanks, rest, hblanks, hback⟩ := haddress front back heq
      have hsome : cut? bar back ≠ none := by
        rw [Ne, cut?_eq_none_iff (by decide), not_not]
        exact ⟨blanks, rest, by rw [hback, List.append_assoc]⟩
      obtain ⟨⟨head, tail⟩, hcut⟩ := Option.ne_none_iff_exists'.mp hsome
      rw [hcut]
      intro c hc
      exact hblanks c ((isPrefix_of_cut?_eq_some (by decide) hcut hback).1.subset hc)

/-- A value that does not mention the documentation of the platform loses its text if it is cut at
its end into a reference to a module. -/
theorem loses_iff_of_not_isInfix (hdocs : ¬platformDocs.toList <:+: value) :
    Loses value ↔ ∃ kind, cut? [':'] value = some (kind, []) ∧ "module".toList <:+: kind := by
  constructor
  · intro h
    cases h with
    | link hlink => exact absurd hlink hdocs
    | @reference kind _ hcolon hmodule heq =>
      exact ⟨kind, cut?_singleton_eq_some_iff.mpr ⟨heq, hcolon⟩, hmodule⟩
  · intro h
    obtain ⟨kind, hcut, hmodule⟩ := h
    obtain ⟨heq, hcolon⟩ := cut?_singleton_eq_some_iff.mp hcut
    exact .reference hdocs hcolon hmodule heq

/-- Nothing is left of a value that is not empty and without surrounding blanks exactly if it loses
its text. -/
theorem classify_eq_none_iff (id : String) {value : String} (hne : value ≠ "")
    (htrim : trimmed value = value) :
    ((classify id value).name = none ∧ (classify id value).description = none) ↔
      Loses value.toList := by
  have htrim := trim_toList htrim
  have hunknown : (ofUnknown id value.toList).description ≠ none := by
    rw [ofUnknown, Ne, ofChars?_eq_none_iff]
    simpa using hne
  rw [classify]
  by_cases hdocs : platformDocs.toList <:+: value.toList
  · rw [if_pos ((occursIn_iff (by decide)).mpr hdocs), name_ofLink_eq_none_iff]
    constructor
    · intro h
      exact .link hdocs h.1 ((description_ofLink_eq_none_iff id htrim h.1).mp h.2)
    · intro h
      cases h with
      | link _ hname haddress =>
        exact ⟨hname, (description_ofLink_eq_none_iff id htrim hname).mpr haddress⟩
      | reference hno => exact absurd hdocs hno
  · rw [if_neg ((occursIn_iff (by decide)).not.mpr hdocs), loses_iff_of_not_isInfix hdocs]
    cases hcut : cut? [':'] value.toList with
    | none => exact iff_of_false (fun h => hunknown h.2) (by simp)
    | some found =>
      obtain ⟨kind, name⟩ := found
      obtain ⟨heq, -⟩ := cut?_singleton_eq_some_iff.mp hcut
      dsimp only
      by_cases hmodule : "module".toList <:+: kind
      · rw [if_pos ((occursIn_iff (by decide)).mpr hmodule), ofReference, and_self_iff,
          ofChars?_eq_none_iff, trim_eq_nil_iff]
        constructor
        · intro h
          have hend : value.toList = (kind ++ [':']) ++ name := by simp [heq]
          rw [eq_nil_of_forall_isBlank (hend ▸ htrim) h]
          exact ⟨kind, rfl, hmodule⟩
        · intro h
          obtain ⟨_, hpair, -⟩ := h
          obtain ⟨-, rfl⟩ := Prod.mk.inj (Option.some.inj hpair)
          exact List.forall_mem_nil _
      · rw [if_neg ((occursIn_iff (by decide)).not.mpr hmodule)]
        refine iff_of_false (fun h => hunknown h.2) fun h => ?_
        obtain ⟨_, hpair, hother⟩ := h
        obtain ⟨rfl, -⟩ := Prod.mk.inj (Option.some.inj hpair)
        exact hmodule hother

/-! ## What is shown -/

/-- A text is taken from a value: it is a part of the value, or such a part without its closing
braces. -/
def IsTaken (value : List Char) (text : String) : Prop :=
  ∃ part, part <:+: value ∧ (text.toList = part ∨ text.toList = part.filter (· != '\x7d'))

/-- A requirement says nothing but what is taken from a value, and never an empty text. -/
structure TellsOf (value : List Char) (r : Requirement) : Prop where
  type : ∃ type, r.type = some type
  name : ∀ text, r.name = some text → text ≠ "" ∧ IsTaken value text
  description : ∀ text, r.description = some text → text ≠ "" ∧ IsTaken value text

/-- A text that is made of characters has exactly these. -/
theorem of_ofChars?_eq_some {s : List Char} {text : String} (h : ofChars? s = some text) :
    text ≠ "" ∧ text.toList = s := by
  cases s with
  | nil => cases h
  | cons c rest =>
    obtain rfl := Option.some.inj h
    simp

/-- A part of a value is taken from it. -/
theorem isTaken_of_isInfix {part : List Char} {text : String} (hpart : part <:+: value)
    (h : ofChars? part = some text) : text ≠ "" ∧ IsTaken value text :=
  (of_ofChars?_eq_some h).imp_right fun htext => ⟨part, hpart, Or.inl htext⟩

/-- A part of what is left without closing braces is taken from the value. -/
theorem isTaken_of_isInfix_filter {part : List Char} {text : String}
    (hpart : part <:+: value.filter (· != '\x7d')) (h : ofChars? part = some text) :
    text ≠ "" ∧ IsTaken value text := by
  obtain ⟨front, back, heq⟩ := hpart
  obtain ⟨rest, last, rfl, hrest, -⟩ := List.filter_eq_append_iff.mp heq.symm
  obtain ⟨first, middle, rfl, -, hmiddle⟩ := List.filter_eq_append_iff.mp hrest
  obtain ⟨hne, htext⟩ := of_ofChars?_eq_some h
  exact ⟨hne, middle, ⟨first, last, rfl⟩, Or.inr (htext.trans hmiddle.symm)⟩

/-- What is taken from a part of a value is taken from the value. -/
theorem IsTaken.of_isInfix {part : List Char} {text : String} (h : IsTaken part text)
    (hpart : part <:+: value) : IsTaken value text := by
  obtain ⟨inner, hinner, htext⟩ := h
  exact ⟨inner, hinner.trans hpart, htext⟩

/-- A requirement tells of the value that it is made of. -/
theorem tellsOf_classify (id value : String) : TellsOf value.toList (classify id value) := by
  have hunknown : TellsOf value.toList (ofUnknown id value.toList) := by
    refine ⟨⟨_, rfl⟩, fun text h => ?_, fun text h => isTaken_of_isInfix List.infix_rfl h⟩
    cases h
  have hbar : bar ≠ [] := by decide
  have hlink : linkOpening ≠ [] := by decide
  rw [classify]
  split
  · refine ⟨⟨_, rfl⟩, fun text h => ?_, fun text h => ?_⟩
    · obtain ⟨hne, htaken⟩ := isTaken_of_isInfix_filter (trim_isInfix _) h
      exact ⟨hne, htaken.of_isInfix (after_isSuffix hbar).isInfix⟩
    · have haddress : Text.before bar (Text.after linkOpening value.toList) <:+: value.toList :=
        (before_isPrefix hbar).isInfix.trans (after_isSuffix hlink).isInfix
      exact isTaken_of_isInfix ((trim_isInfix _).trans haddress) h
  · split
    · next kind name hcut =>
      split
      · obtain ⟨heq, -⟩ := cut?_singleton_eq_some_iff.mp hcut
        have hname : name <:+: value.toList := ⟨kind ++ [':'], [], by simp [heq]⟩
        exact ⟨⟨_, rfl⟩, fun text h => isTaken_of_isInfix ((trim_isInfix name).trans hname) h,
          fun text h => isTaken_of_isInfix ((trim_isInfix name).trans hname) h⟩
      · exact hunknown
    · exact hunknown

end Requirement

end DocAtlas.Tag
