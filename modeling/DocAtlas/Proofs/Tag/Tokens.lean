import DocAtlas.Proofs.Tag.Value

/-!
# Nothing of a value is lost

A value is cut into gaps of spaces and tokens. A token that begins like a group runs to the first
character that closes the group; every other token, be it a group that is never closed, runs to the
next space. There is exactly one such cutting: a gap ends at the first character other than the
space, and that character tells where the token ends. Reading hands the tokens on, one to the type,
one to the name and the others to the description. What is left out on this way is blanks, the marks
around a type or a name, and a dash before the description.
-/

namespace DocAtlas

namespace Text

/-- The characters of a text other than blanks. -/
def visible (s : List Char) : List Char :=
  s.filter fun c => !isBlank c

/-- The visible characters of two texts stand one after the other. -/
theorem visible_append (s t : List Char) : visible (s ++ t) = visible s ++ visible t :=
  List.filter_append ..

/-- A character other than a blank is visible. -/
theorem visible_cons {c : Char} (h : isBlank c = false) (s : List Char) :
    visible (c :: s) = c :: visible s :=
  List.filter_cons_of_pos (by simp [h])

/-- Of blanks nothing is visible. -/
theorem visible_of_forall {s : List Char} (h : ∀ c ∈ s, isBlank c = true) : visible s = [] := by
  rw [visible, List.filter_eq_nil_iff]
  intro c hc
  simp [h c hc]

/-- Dropping surrounding blanks leaves what is visible. -/
theorem visible_trim (s : List Char) : visible (trim s) = visible s := by
  have hstart : visible (trimStart s) = visible s := by
    have hblanks : visible (s.takeWhile isBlank) = [] :=
      visible_of_forall (List.all_eq_true.mp List.all_takeWhile)
    rw [← List.takeWhile_append_dropWhile (p := isBlank) (l := s), visible_append, hblanks,
      List.takeWhile_append_dropWhile]
    rfl
  obtain ⟨after, hafter, hsplit⟩ := exists_eq_trimEnd_append (trimStart s)
  have hend := visible_append (trimEnd (trimStart s)) after
  rwa [← hsplit, visible_of_forall hafter, List.append_nil, hstart, eq_comm] at hend

/-- Spaces between pieces are not visible. -/
theorem visible_joinWith (pieces : List (List Char)) :
    visible (joinWith [' '] pieces) = pieces.flatMap visible := by
  induction pieces with
  | nil => rfl
  | cons first rest ih =>
    cases rest with
    | nil => simp [joinWith]
    | cons second others =>
      have hspace : visible [' '] = [] := by decide
      rw [joinWith, visible_append, visible_append, ih, hspace, List.append_nil]
      rfl

/-- The visible characters of a string that may be missing. -/
def visible? (s : Option String) : List Char :=
  visible (s.getD "").toList

/-- A text is as visible as the string that it gives. -/
theorem visible?_ofChars? (s : List Char) : visible? (ofChars? s) = visible s := by
  cases s with
  | nil => rfl
  | cons c rest => rw [ofChars?, visible?, Option.getD_some, String.toList_ofList]; simp

end Text

namespace Tag

open DocAtlas.Text

/-- The characters that open and close a group. -/
inductive Encloses : Char → Char → Prop
  | braces : Encloses '\x7b' '\x7d'
  | brackets : Encloses '[' ']'
  | backticks : Encloses '\x60' '\x60'

/-- Is a text, followed by another one, a token? A group runs to the first character that closes it,
and any other token to the next space. -/
inductive IsTokenBefore (after : List Char) : List Char → Prop
  | group {first last : Char} {inside : List Char} (hpair : Encloses first last)
      (hinside : last ∉ inside) : IsTokenBefore after (first :: (inside ++ [last]))
  | run {first : Char} {run : List Char} (hopen : ∀ last, Encloses first last → last ∉ run ++ after)
      (hrun : ' ' ∉ first :: run) (hstop : ∀ c, after.head? = some c → c = ' ') :
      IsTokenBefore after (first :: run)

/-- A value cut into gaps and tokens: the tokens, each with the gap before it, and the gap behind
the last token. -/
structure Cutting where
  parts : List (List Char × List Char)
  last : List Char

/-- The tokens of a cutting. -/
def Cutting.tokens (cutting : Cutting) : List (List Char) :=
  cutting.parts.map Prod.snd

/-- Is a value cut into gaps of spaces and tokens in this way? -/
inductive CutsTo : List Char → Cutting → Prop
  | last {gap : List Char} (hgap : ∀ c ∈ gap, c = ' ') : CutsTo gap ⟨[], gap⟩
  | token {gap token rest : List Char} {cutting : Cutting} (hgap : ∀ c ∈ gap, c = ' ')
      (htoken : IsTokenBefore rest token) (hrest : CutsTo rest cutting) :
      CutsTo (gap ++ (token ++ rest)) ⟨(gap, token) :: cutting.parts, cutting.last⟩

section

variable {c close : Char} {s body token after : List Char}

/-- The character that closes a group is the one that belongs to the opening one. -/
theorem closer?_eq_some_iff : closer? c = some close ↔ Encloses c close := by
  constructor
  · intro h
    rw [closer?] at h
    split at h
    · next hc =>
      obtain rfl := Option.some.inj h
      exact hc ▸ .braces
    · split at h
      · next hc =>
        obtain rfl := Option.some.inj h
        exact hc ▸ .brackets
      · split at h
        · next hc =>
          obtain rfl := Option.some.inj h
          exact hc ▸ .backticks
        · contradiction
  · intro h
    cases h <;> decide

/-- No group is opened by a space. -/
theorem Encloses.ne_space (h : Encloses c close) : c ≠ ' ' := by
  cases h <;> decide

/-- A token begins with a character other than the space. -/
theorem IsTokenBefore.exists_cons (h : IsTokenBefore after token) :
    ∃ first body, token = first :: body ∧ first ≠ ' ' := by
  cases h with
  | @group first last inside hpair hinside =>
    exact ⟨first, inside ++ [last], rfl, hpair.ne_space⟩
  | @run first run hopen hrun hstop =>
    rw [List.mem_cons, not_or] at hrun
    exact ⟨first, run, rfl, Ne.symm hrun.1⟩

/-- A token of the cutting is what is taken behind its first character. -/
theorem IsTokenBefore.takeToken_eq (h : IsTokenBefore after (c :: body)) :
    takeToken c (body ++ after) = (body, after) := by
  cases h with
  | @group _ last inside hpair hinside =>
    rw [List.append_assoc, List.singleton_append]
    exact takeToken_group (closer?_eq_some_iff.mpr hpair) hinside after
  | run hopen hrun hstop =>
    rw [List.mem_cons, not_or] at hrun
    exact takeToken_run (fun last hlast => hopen last (closer?_eq_some_iff.mp hlast)) hrun.2 hstop

/-- What is taken behind a first character other than the space is the rest of a token. -/
theorem isTokenBefore_takeToken (hc : c ≠ ' ') (s : List Char) :
    s = (takeToken c s).1 ++ (takeToken c s).2 ∧
      IsTokenBefore (takeToken c s).2 (c :: (takeToken c s).1) := by
  have hrun (hopen : ∀ last, Encloses c last → last ∉ s) :
      s = (takeRun s).1 ++ (takeRun s).2 ∧ IsTokenBefore (takeRun s).2 (c :: (takeRun s).1) := by
    have hsplit : s = (takeRun s).1 ++ (takeRun s).2 := List.takeWhile_append_dropWhile.symm
    refine ⟨hsplit, .run (by rwa [← hsplit]) ?_ ?_⟩
    · rw [List.mem_cons, not_or]
      refine ⟨Ne.symm hc, fun hmem => ?_⟩
      have hspace := List.all_eq_true.mp List.all_takeWhile ' ' hmem
      contradiction
    · intro d hd
      have hnot := List.head?_dropWhile_not (· != ' ') s
      rw [takeRun] at hd
      simpa [hd] using hnot
  cases hclose : closer? c with
  | none =>
    have htake : takeToken c s = takeRun s := by simp [takeToken, hclose]
    rw [htake]
    refine hrun fun last hlast => ?_
    rw [closer?_eq_some_iff.mpr hlast] at hclose
    contradiction
  | some close =>
    cases hcut : cut? [close] s with
    | none =>
      have htake : takeToken c s = takeRun s := by simp [takeToken, hclose, hcut]
      rw [htake]
      rw [cut?_eq_none_iff (by simp), List.singleton_infix_iff] at hcut
      refine hrun fun last hlast => ?_
      rw [closer?_eq_some_iff.mpr hlast] at hclose
      rwa [Option.some.inj hclose]
    | some found =>
      obtain ⟨inside, rest⟩ := found
      have htake : takeToken c s = (inside ++ [close], rest) := by simp [takeToken, hclose, hcut]
      obtain ⟨hsplit, hbefore⟩ := (cut?_eq_some_iff (by simp)).mp hcut
      rw [htake]
      refine ⟨by rw [hsplit, List.append_assoc], .group (closer?_eq_some_iff.mp hclose) ?_⟩
      intro hmem
      exact hbefore (beginsIn_of_isInfix (by simp) ((List.singleton_infix_iff _ _).mpr hmem) _)

/-- A gap before a token ends where the spaces end. -/
theorem takeWhile_space_of_gap {gap : List Char} (hgap : ∀ d ∈ gap, d = ' ')
    (htoken : IsTokenBefore after token) :
    (gap ++ (token ++ after)).takeWhile (· == ' ') = gap := by
  obtain ⟨first, body, rfl, hfirst⟩ := htoken.exists_cons
  refine takeWhile_append_of_stop (fun d hd => beq_iff_eq.mpr (hgap d hd)) fun d hd => ?_
  rw [← Option.some.inj hd]
  exact beq_false_of_ne hfirst

/-- Spaces are no gap before a token if nothing else follows. -/
theorem not_isTokenBefore_of_spaces {gap front : List Char} (hgap : ∀ d ∈ gap, d = ' ')
    (heq : gap = front ++ (token ++ after)) : ¬IsTokenBefore after token := by
  intro htoken
  obtain ⟨first, body, rfl, hfirst⟩ := htoken.exists_cons
  exact hfirst (hgap first (by rw [heq]; simp))

/-- A value is cut in one way only. -/
theorem CutsTo.unique {cutting other : Cutting} (h : CutsTo s cutting) (hother : CutsTo s other) :
    cutting = other := by
  induction h generalizing other with
  | @last gap hgap =>
    generalize hs : gap = s at hother
    cases hother with
    | last => rfl
    | token _ htoken _ => exact absurd htoken (not_isTokenBefore_of_spaces hgap hs)
  | @token gap token rest cutting hgap htoken _ ih =>
    generalize hs : gap ++ (token ++ rest) = s at hother
    cases hother with
    | last hgap' => exact absurd htoken (not_isTokenBefore_of_spaces hgap' hs.symm)
    | @token gap' token' rest' cutting' hgap' htoken' hrest' =>
      have hgaps := takeWhile_space_of_gap hgap htoken
      rw [hs, takeWhile_space_of_gap hgap' htoken'] at hgaps
      subst hgaps
      -- Both texts behind the gap begin with one character, which says what is taken there.
      obtain ⟨first, body, rfl, _⟩ := htoken.exists_cons
      obtain ⟨first', body', rfl, _⟩ := htoken'.exists_cons
      obtain ⟨rfl, hbehind⟩ : first = first' ∧ body ++ rest = body' ++ rest' :=
        List.cons.inj (List.append_cancel_left hs)
      have htake := htoken.takeToken_eq
      rw [hbehind, htoken'.takeToken_eq] at htake
      obtain ⟨rfl, rfl⟩ := Prod.mk.inj htake
      rw [ih hrest']

/-- A space belongs to the gap before what follows. -/
theorem CutsTo.cons_space {cutting : Cutting} (h : CutsTo s cutting) :
    ∃ longer : Cutting, CutsTo (' ' :: s) longer ∧ longer.tokens = cutting.tokens := by
  cases h with
  | last hgap =>
    exact ⟨⟨[], ' ' :: s⟩, .last (List.forall_mem_cons.mpr ⟨rfl, hgap⟩), rfl⟩
  | @token gap token rest cutting hgap htoken hrest =>
    refine ⟨⟨(' ' :: gap, token) :: cutting.parts, cutting.last⟩, ?_, rfl⟩
    rw [← List.cons_append]
    exact .token (List.forall_mem_cons.mpr ⟨rfl, hgap⟩) htoken hrest

/-- Every value is cut into gaps and the tokens that are taken from it. -/
theorem exists_cutsTo (s : List Char) :
    ∃ cutting, CutsTo s cutting ∧ cutting.tokens = tokens s := by
  induction s using tokens.induct with
  | case1 => exact ⟨⟨[], []⟩, .last (by simp), by rw [tokens]; rfl⟩
  | case2 rest ih =>
    obtain ⟨cutting, hcuts, htokens⟩ := ih
    obtain ⟨longer, hlonger, hsame⟩ := hcuts.cons_space
    exact ⟨longer, hlonger, by rw [hsame, htokens, tokens_space]⟩
  | case3 c rest hc ih =>
    obtain ⟨cutting, hcuts, htokens⟩ := ih
    obtain ⟨hsplit, htoken⟩ := isTokenBefore_takeToken hc rest
    refine ⟨⟨([], c :: (takeToken c rest).1) :: cutting.parts, cutting.last⟩, ?_, ?_⟩
    · have hcut := CutsTo.token (List.forall_mem_nil (· = ' ')) htoken hcuts
      rwa [List.nil_append, List.cons_append, ← hsplit] at hcut
    · rw [tokens_cons hc, ← htokens]
      rfl

/-- What is visible of a value is what is visible of its tokens. -/
theorem CutsTo.visible_eq {cutting : Cutting} (h : CutsTo s cutting) :
    visible s = cutting.tokens.flatMap visible := by
  have hspaces {gap : List Char} (hgap : ∀ c ∈ gap, c = ' ') : visible gap = [] := by
    refine visible_of_forall fun c hc => ?_
    rw [hgap c hc]
    decide
  induction h with
  | last hgap => exact hspaces hgap
  | @token gap token rest cutting hgap _ _ ih =>
    rw [visible_append, hspaces hgap, visible_append, ih]
    rfl

end

/-- A text with a pair of marks around it, or without them. -/
def around (first last : Char) (marked : Bool) (inside : List Char) : List Char :=
  if marked then first :: (inside ++ [last]) else inside

/-- Of a token nothing but the marks around it is left out. -/
theorem exists_visible_eq_around (first last : Char) (hfirst : isBlank first = false)
    (hlast : isBlank last = false) (hne : first ≠ last) (token : List Char) :
    ∃ marked, visible token = around first last marked (visible (ungroup first last token)) := by
  cases token with
  | nil => exact ⟨false, rfl⟩
  | cons c rest =>
    rw [ungroup]
    split
    · next hgroup =>
      obtain ⟨rfl, hend⟩ := hgroup
      obtain rfl | ⟨inside, d, rfl⟩ := List.eq_nil_or_concat' rest
      · exact absurd (Option.some.inj hend) hne
      · rw [← List.cons_append, List.getLast?_concat] at hend
        obtain rfl := Option.some.inj hend
        refine ⟨true, ?_⟩
        rw [List.dropLast_concat, visible_trim, visible_cons hfirst, visible_append,
          visible_cons hlast]
        rfl
    · exact ⟨false, rfl⟩

/-- What the tokens of a value show is shown by the type and by the tokens after it. -/
theorem exists_visible_takeType (found : List (List Char)) :
    ∃ braces, found.flatMap visible =
      around '\x7b' '\x7d' braces (visible? (takeType found).1) ++
        (takeType found).2.flatMap visible := by
  cases found with
  | nil => exact ⟨false, rfl⟩
  | cons token rest =>
    rw [takeType]
    split
    · obtain ⟨braces, hbraces⟩ :=
        exists_visible_eq_around '\x7b' '\x7d' (by decide) (by decide) (by decide) token
      exact ⟨braces, by rw [List.flatMap_cons, hbraces, visible?_ofChars?]⟩
    · exact ⟨false, rfl⟩

/-- What the tokens behind the type show is shown by the name and by the tokens after it. -/
theorem exists_visible_takeName (found : List (List Char)) :
    ∃ brackets, found.flatMap visible =
      around '[' ']' brackets (visible? (takeName found).1) ++
        (takeName found).2.flatMap visible := by
  cases found with
  | nil => exact ⟨false, rfl⟩
  | cons token rest =>
    rw [takeName]
    split
    · exact ⟨false, rfl⟩
    · obtain ⟨brackets, hbrackets⟩ :=
        exists_visible_eq_around '[' ']' (by decide) (by decide) (by decide) token
      exact ⟨brackets, by rw [List.flatMap_cons, hbrackets, visible?_ofChars?]⟩

/-- What the tokens of a description show is shown by the description, but for a dash that they
begin with. -/
theorem exists_visible_describe (rest : List (List Char)) :
    ∃ dash : Bool, rest.flatMap visible =
      (if dash then ['-'] else []) ++ visible? (describe rest) := by
  rw [← visible_joinWith, ← visible_trim, describe]
  split
  · next s hdash =>
    refine ⟨true, ?_⟩
    rw [hdash, visible_cons (by decide), visible?_ofChars?, visible_trim]
    rfl
  · refine ⟨false, ?_⟩
    rw [visible?_ofChars?]
    rfl

/-- Nothing of a value is lost. Its tokens are those of the only way to cut it into gaps of spaces
and tokens, and its type, its name and its description show all its characters other than blanks in
their order, but for the braces around the type, the brackets around the name and a dash before the
description. -/
theorem ofString_visible (value : String) :
    (∃ cutting : Cutting, (∀ other, CutsTo value.toList other ↔ other = cutting) ∧
      tokens value.toList = cutting.tokens) ∧
    ∃ braces brackets dash : Bool, visible value.toList =
      around '\x7b' '\x7d' braces (visible? (Value.ofString value).type) ++
        (around '[' ']' brackets (visible? (Value.ofString value).name) ++
          ((if dash then ['-'] else []) ++ visible? (Value.ofString value).description)) := by
  obtain ⟨cutting, hcuts, htokens⟩ := exists_cutsTo value.toList
  constructor
  · refine ⟨cutting, fun other => ⟨fun hother => hother.unique hcuts, ?_⟩, htokens.symm⟩
    intro heq
    rwa [heq]
  · obtain ⟨braces, htype⟩ := exists_visible_takeType (tokens value.toList)
    obtain ⟨brackets, hname⟩ := exists_visible_takeName (takeType (tokens value.toList)).2
    obtain ⟨dash, hdescription⟩ :=
      exists_visible_describe (takeName (takeType (tokens value.toList)).2).2
    refine ⟨braces, brackets, dash, ?_⟩
    rw [hcuts.visible_eq, htokens, htype, hname, hdescription]
    rfl

end Tag

end DocAtlas
