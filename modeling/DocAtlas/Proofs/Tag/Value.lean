import DocAtlas.Proofs.Text.Cut
import DocAtlas.Proofs.Text.Trim
import DocAtlas.Tag.Value

/-!
# Written tag values

A value is written as its type in braces, its name with or without brackets, and its description
behind a dash, with single spaces between the parts that are there. Reading gives these parts back.
Type and name are one token each, whatever characters they hold, and the dash in front of a
description is a token of its own; so the tokens of a written value tell where each part begins, and
a part that is left out leaves its place empty.
-/

namespace DocAtlas.Tag

open DocAtlas.Text

namespace Value

/-- A type that can stand in braces. -/
structure TypePart where
  text : String
  nonempty : text ≠ ""
  trimmed_eq : trimmed text = text
  unclosed : '\x7d' ∉ text.toList

/-- A name of a parameter: one that can stand in brackets, or a bare one without spaces that is not
taken for a group or a dash. -/
inductive NamePart where
  | bracketed (text : String) (nonempty : text ≠ "") (trimmed_eq : trimmed text = text)
      (unclosed : ']' ∉ text.toList)
  | bare (text : String) (nonempty : text ≠ "") (unspaced : ' ' ∉ text.toList)
      (notDash : text ≠ "-")
      (notGroup : text.toList.head? ∉ [some '\x7b', some '[', some '\x60'])

/-- A description whose tokens are separated by single spaces. -/
structure Prose where
  text : String
  nonempty : text ≠ ""
  trimmed_eq : trimmed text = text
  spaced : " ".intercalate ((tokens text.toList).map String.ofList) = text

/-- How a type is written. -/
def TypePart.written (type : TypePart) : String :=
  "\x7b" ++ type.text ++ "\x7d"

/-- The text of a name. -/
def NamePart.text : NamePart → String
  | bracketed text _ _ _ => text
  | bare text _ _ _ _ => text

/-- How a name is written. -/
def NamePart.written : NamePart → String
  | bracketed text _ _ _ => "[" ++ text ++ "]"
  | bare text _ _ _ _ => text

/-- How a description is written. -/
def Prose.written (prose : Prose) : String :=
  "- " ++ prose.text

/-- How a value is written. -/
def write (type : Option TypePart) (name : Option NamePart) (prose : Option Prose) : String :=
  " ".intercalate ((type.map TypePart.written).toList ++ (name.map NamePart.written).toList ++
    (prose.map Prose.written).toList)

end Value

section Tokens

variable {c close : Char} {inside run token : List Char}

/-- Spaces between tokens are passed over. -/
theorem tokens_space (s : List Char) : tokens (' ' :: s) = tokens s := by
  rw [tokens, if_pos rfl]

/-- A character other than the space begins a token. -/
theorem tokens_cons (hc : c ≠ ' ') (s : List Char) :
    tokens (c :: s) = (c :: (takeToken c s).1) :: tokens (takeToken c s).2 := by
  rw [tokens, if_neg hc]

/-- A group is taken to the first character that closes it. -/
theorem takeToken_group (hclose : closer? c = some close) (hinside : close ∉ inside)
    (rest : List Char) : takeToken c (inside ++ close :: rest) = (inside ++ [close], rest) := by
  rw [takeToken, hclose]
  simp [cut?_of_notMem hinside]

/-- Where no group is closed, a run of characters other than the space is taken to the next
space. -/
theorem takeToken_run {rest : List Char}
    (hopen : ∀ close, closer? c = some close → close ∉ run ++ rest) (hrun : ' ' ∉ run)
    (hrest : ∀ d, rest.head? = some d → d = ' ') : takeToken c (run ++ rest) = (run, rest) := by
  have hinside : ∀ d ∈ run, (d != ' ') = true := by
    intro d hd
    exact bne_iff_ne.mpr fun heq => hrun (heq ▸ hd)
  have hstop : ∀ d, rest.head? = some d → (d != ' ') = false := by
    intro d hd
    simp [hrest d hd]
  have htake : takeRun (run ++ rest) = (run, rest) :=
    Prod.ext (takeWhile_append_of_stop hinside hstop) (dropWhile_append_of_stop hinside hstop)
  rw [takeToken]
  cases hclose : closer? c with
  | none => exact htake
  | some close =>
    have hnone : cut? [close] (run ++ rest) = none := by
      rw [cut?_eq_none_iff (by simp), List.singleton_infix_iff]
      exact hopen close hclose
    simp only [hnone, htake]

/-- A text that is a token wherever it stands at the end or before a space. -/
def IsToken (token : List Char) : Prop :=
  ∀ rest : List Char, (∀ c, rest.head? = some c → c = ' ') →
    tokens (token ++ rest) = token :: tokens rest

/-- A group is a token if it is closed by its last character only. -/
theorem isToken_group (hclose : closer? c = some close) (hinside : close ∉ inside) :
    IsToken (c :: (inside ++ [close])) := by
  intro rest _
  have hc : c ≠ ' ' := by
    intro hspace
    subst hspace
    simp [closer?] at hclose
  rw [List.cons_append, List.append_assoc, List.singleton_append, tokens_cons hc,
    takeToken_group hclose hinside]

/-- A run of characters other than the space is a token if it does not begin like a group. -/
theorem isToken_run (hopen : closer? c = none) (hrun : ' ' ∉ c :: run) : IsToken (c :: run) := by
  intro rest hrest
  rw [List.mem_cons, not_or] at hrun
  rw [List.cons_append, tokens_cons (Ne.symm hrun.1),
    takeToken_run (by simp [hopen]) hrun.2 hrest]

/-- The dash before a description is a token. -/
theorem isToken_dash : IsToken ['-'] :=
  isToken_run (by decide) (by decide)

/-- Tokens that are joined by spaces come back, whatever is joined behind them. -/
theorem tokens_joinWith_append {found : List (List Char)} (h : ∀ token ∈ found, IsToken token)
    (rest : List (List Char)) :
    tokens (joinWith [' '] (found ++ rest)) = found ++ tokens (joinWith [' '] rest) := by
  induction found with
  | nil => rfl
  | cons token found ih =>
    rw [List.forall_mem_cons] at h
    have ih := ih h.2
    rw [List.cons_append, List.cons_append]
    cases hmore : found ++ rest with
    | nil =>
      obtain ⟨rfl, rfl⟩ := List.append_eq_nil_iff.mp hmore
      have hlast := h.1 [] (by simp)
      rwa [List.append_nil] at hlast
    | cons next others =>
      have hspace := h.1 (' ' :: joinWith [' '] (next :: others)) (by simp)
      rw [joinWith, List.append_assoc, List.singleton_append, hspace, tokens_space, ← hmore, ih]

end Tokens

/-- A string that is not empty is given as it is. -/
theorem ofChars?_toList {s : String} (h : s ≠ "") : ofChars? s.toList = some s := by
  cases hs : s.toList with
  | nil => exact absurd (String.toList_eq_nil_iff.mp hs) h
  | cons c rest => rw [ofChars?, ← hs, String.ofList_toList]; simp

/-- The inside of a group is given without its blanks. -/
theorem ungroup_group (first last : Char) (inside : List Char) :
    ungroup first last (first :: (inside ++ [last])) = trim inside := by
  have hlast : (first :: (inside ++ [last])).getLast? = some last := by
    rw [← List.cons_append, List.getLast?_concat]
  rw [ungroup, if_pos ⟨rfl, hlast⟩, List.dropLast_concat]

namespace Value

/-- The tokens of a written type. -/
def typeTokens : Option TypePart → List (List Char)
  | none => []
  | some type => [type.written.toList]

/-- The tokens of a written name. -/
def nameTokens : Option NamePart → List (List Char)
  | none => []
  | some name => [name.written.toList]

/-- The tokens of a written description. -/
def proseTokens : Option Prose → List (List Char)
  | none => []
  | some prose => ['-'] :: tokens prose.text.toList

/-- The characters of a written type. -/
theorem TypePart.toList_written (type : TypePart) :
    type.written.toList = '\x7b' :: (type.text.toList ++ ['\x7d']) := by
  simp [TypePart.written]

/-- A written type is one token. -/
theorem TypePart.isToken (type : TypePart) : IsToken type.written.toList := by
  rw [type.toList_written]
  exact isToken_group (by decide) type.unclosed

/-- The characters of a name in brackets. -/
theorem NamePart.toList_written_bracketed {text : String} (nonempty : text ≠ "")
    (trimmed_eq : trimmed text = text) (unclosed : ']' ∉ text.toList) :
    (bracketed text nonempty trimmed_eq unclosed).written.toList =
      '[' :: (text.toList ++ [']']) := by
  simp [written]

/-- A name without brackets has a first character, which opens no group. -/
theorem NamePart.exists_cons_of_bare {text : String} (nonempty : text ≠ "")
    (notGroup : text.toList.head? ∉ [some '\x7b', some '[', some '\x60']) :
    ∃ c run, text.toList = c :: run ∧ c ≠ '\x7b' ∧ c ≠ '[' ∧ c ≠ '\x60' := by
  cases hchars : text.toList with
  | nil => exact absurd (String.toList_eq_nil_iff.mp hchars) nonempty
  | cons c run =>
    rw [hchars] at notGroup
    refine ⟨c, run, rfl, ?_⟩
    simpa using notGroup

/-- A written name is one token. -/
theorem NamePart.isToken (name : NamePart) : IsToken name.written.toList := by
  cases name with
  | bracketed text nonempty trimmed_eq unclosed =>
    rw [toList_written_bracketed]
    exact isToken_group (by decide) unclosed
  | bare text nonempty unspaced notDash notGroup =>
    obtain ⟨c, run, hchars, hbrace, hbracket, hbacktick⟩ := exists_cons_of_bare nonempty notGroup
    rw [hchars] at unspaced
    rw [written, hchars]
    exact isToken_run (by simp [closer?, hbrace, hbracket, hbacktick]) unspaced

/-- The tokens of a written value are those of its parts. -/
theorem tokens_write (type : Option TypePart) (name : Option NamePart) (prose : Option Prose) :
    tokens (write type name prose).toList =
      typeTokens type ++ (nameTokens name ++ proseTokens prose) := by
  have htype : (type.map TypePart.written).toList.map String.toList = typeTokens type := by
    cases type <;> rfl
  have hname : (name.map NamePart.written).toList.map String.toList = nameTokens name := by
    cases name <;> rfl
  have hprose : tokens (joinWith [' '] ((prose.map Prose.written).toList.map String.toList)) =
      proseTokens prose := by
    cases prose with
    | none => simp [joinWith, tokens, proseTokens]
    | some prose =>
      have hdash := isToken_dash (' ' :: prose.text.toList) (by simp)
      simpa [joinWith, Prose.written, proseTokens, tokens_space] using hdash
  have htokens : ∀ token ∈ typeTokens type ++ nameTokens name, IsToken token := by
    intro token htoken
    rcases List.mem_append.mp htoken with htoken | htoken
    · cases type with
      | none => exact absurd htoken List.not_mem_nil
      | some type =>
        rw [List.mem_singleton.mp htoken]
        exact type.isToken
    · cases name with
      | none => exact absurd htoken List.not_mem_nil
      | some name =>
        rw [List.mem_singleton.mp htoken]
        exact name.isToken
  have hspace : " ".toList = [' '] := rfl
  rw [write, String.toList_intercalate, hspace, ← joinWith_eq_intercalate, List.map_append,
    List.map_append, htype, hname, tokens_joinWith_append htokens, hprose, List.append_assoc]

/-- A type is taken from the tokens of a value that begins with it. -/
theorem takeType_append (type : Option TypePart) {rest : List (List Char)}
    (h : ∀ token, rest.head? = some token → token.head? ≠ some '\x7b') :
    takeType (typeTokens type ++ rest) = (type.map TypePart.text, rest) := by
  cases type with
  | none =>
    cases rest with
    | nil => rfl
    | cons token rest => exact if_neg (h token rfl)
  | some type =>
    have hgroup : ofChars? (ungroup '\x7b' '\x7d' type.written.toList) = some type.text := by
      rw [type.toList_written, ungroup_group, trim_toList type.trimmed_eq,
        ofChars?_toList type.nonempty]
    have hbrace : type.written.toList.head? = some '\x7b' := by
      rw [type.toList_written, List.head?_cons]
    rw [typeTokens, List.singleton_append, takeType, if_pos hbrace, hgroup]
    rfl

/-- What follows the type is not taken for a type. -/
theorem head?_ne_brace (name : Option NamePart) (prose : Option Prose) :
    ∀ token, (nameTokens name ++ proseTokens prose).head? = some token →
      token.head? ≠ some '\x7b' := by
  intro token htoken
  cases name with
  | none =>
    cases prose with
    | none => simp [nameTokens, proseTokens] at htoken
    | some prose =>
      obtain rfl : ['-'] = token := Option.some.inj htoken
      decide
  | some name =>
    obtain rfl : name.written.toList = token := Option.some.inj htoken
    cases name with
    | bracketed text nonempty trimmed_eq unclosed =>
      rw [NamePart.toList_written_bracketed]
      simp
    | bare text nonempty unspaced notDash notGroup =>
      obtain ⟨c, run, hchars, hbrace, _⟩ := NamePart.exists_cons_of_bare nonempty notGroup
      rw [NamePart.written, hchars]
      simpa using hbrace

/-- A name is taken from the tokens of a value that begins with it. -/
theorem takeName_append (name : Option NamePart) (prose : Option Prose) :
    takeName (nameTokens name ++ proseTokens prose) =
      (name.map NamePart.text, proseTokens prose) := by
  cases name with
  | none =>
    cases prose with
    | none => rfl
    | some prose => simp [nameTokens, proseTokens, takeName]
  | some name =>
    have hname : name.written.toList ≠ ['-'] ∧
        ofChars? (ungroup '[' ']' name.written.toList) = some name.text := by
      cases name with
      | bracketed text nonempty trimmed_eq unclosed =>
        rw [NamePart.toList_written_bracketed, ungroup_group, trim_toList trimmed_eq,
          ofChars?_toList nonempty]
        exact ⟨by simp, rfl⟩
      | bare text nonempty unspaced notDash notGroup =>
        obtain ⟨c, run, hchars, _, hbracket, _⟩ := NamePart.exists_cons_of_bare nonempty notGroup
        have hgroup : ungroup '[' ']' text.toList = text.toList := by
          simp [ungroup, hchars, hbracket]
        rw [NamePart.written, hgroup, ofChars?_toList nonempty]
        exact ⟨fun hdash => notDash (String.toList_inj.mp hdash), rfl⟩
    rw [nameTokens, List.singleton_append, takeName, if_neg hname.1, hname.2]
    rfl

/-- A description is put together from its tokens. -/
theorem describe_proseTokens (prose : Option Prose) :
    describe (proseTokens prose) = prose.map Prose.text := by
  cases prose with
  | none => rfl
  | some prose =>
    have hne : prose.text.toList ≠ [] := fun hnil =>
      prose.nonempty (String.toList_eq_nil_iff.mp hnil)
    have htrim := trim_toList prose.trimmed_eq
    have hjoin : joinWith [' '] (tokens prose.text.toList) = prose.text.toList := by
      have hspaced := congrArg String.toList prose.spaced
      rw [String.toList_intercalate, ← joinWith_eq_intercalate] at hspaced
      simpa using hspaced
    have hdash : joinWith [' '] (['-'] :: tokens prose.text.toList) =
        ['-', ' '] ++ prose.text.toList := by
      cases htokens : tokens prose.text.toList with
      | nil =>
        rw [htokens] at hjoin
        exact absurd hjoin.symm hne
      | cons first rest =>
        rw [joinWith, ← htokens, hjoin]
        rfl
    have hall : trim (['-', ' '] ++ prose.text.toList) = ['-', ' '] ++ prose.text.toList := by
      rw [trim, List.cons_append, trimStart_cons (by decide), ← List.cons_append,
        trimEnd_append hne htrim]
    have hrest : trim (' ' :: prose.text.toList) = prose.text.toList := by
      rw [trim, trimStart, List.dropWhile_cons_of_pos (by decide), ← trimStart, ← trim, htrim]
    rw [describe, proseTokens, hdash, hall]
    simp [hrest, ofChars?_toList prose.nonempty]

/-- Reading undoes writing: the type, the name and the description of a written value come back, and
nothing is read in the place of a part that is left out. The same holds for values without a
name. -/
theorem ofString_write (type : Option TypePart) (name : Option NamePart) (prose : Option Prose) :
    Value.ofString (write type name prose) =
      { type := type.map TypePart.text
        name := name.map NamePart.text
        description := prose.map Prose.text } ∧
    Result.ofString (write type none prose) =
      { type := type.map TypePart.text
        description := prose.map Prose.text } := by
  have hvalue := takeType_append type (head?_ne_brace name prose)
  have hresult := takeType_append type (head?_ne_brace none prose)
  constructor
  · rw [Value.ofString, tokens_write, hvalue]
    simp only [takeName_append, describe_proseTokens]
  · rw [Result.ofString, tokens_write, hresult]
    simp only [nameTokens, List.nil_append, describe_proseTokens]

/-- Values whose parts hold braces, brackets, dashes and tabs. -/
theorem ofString_write_motley :
    Value.ofString "\x7bMap<\x7b, [string]>\x7d [- key = \x7b1\x7d] - - see `a  b` \x7bor" =
        ⟨some "Map<\x7b, [string]>", some "- key = \x7b1\x7d", some "- see `a  b` \x7bor"⟩ ∧
      Value.ofString "-\tkey]" = ⟨none, some "-\tkey]", none⟩ ∧
      Result.ofString "- - see `a  b` \x7bor" = ⟨none, some "- see `a  b` \x7bor"⟩ := by
  let type : TypePart := ⟨"Map<\x7b, [string]>", by decide, by decide, by decide⟩
  let bracketed := NamePart.bracketed "- key = \x7b1\x7d" (by decide) (by decide) (by decide)
  let bare := NamePart.bare "-\tkey]" (by decide) (by decide) (by decide) (by decide)
  let prose : Prose := ⟨"- see `a  b` \x7bor", by decide, by decide, by decide +kernel⟩
  exact ⟨(ofString_write type bracketed prose).1, (ofString_write none bare none).1,
    (ofString_write none none prose).2⟩

end Value

end DocAtlas.Tag
