import DocAtlas.Proofs.Comment.Values
import DocAtlas.Proofs.Text.Marked
import Mathlib.Data.List.Forall2

/-!
# The grammar of comment blocks

What a line of a comment block carries, said without a search. A line is a tag if it can be cut into
a lead, an `@`, a name, blanks and a value; it is a text if it can be cut into a lead, a `*`, blanks
and a text; and of several such cuts the one with the shortest lead counts. Reading agrees with this
grammar on every line. Given the lead, there is only one cut: a name ends where the blanks begin, as
no blank is a word character, and the blanks end where the value begins. So a search from left to
right that stops at the first mark with a cut behind it finds the cut with the shortest lead.
-/

namespace DocAtlas

namespace Text

/-- No blank is a word character. -/
theorem isWord_eq_false_of_isBlank {c : Char} (h : isBlank c = true) : isWord c = false := by
  have hpoints : ∀ range ∈ blankRanges, ∀ offset ≤ range.2 - range.1,
      inRanges alphanumericRanges (range.1 + offset) = false := by
    decide +kernel
  have hne : c ≠ '_' := by
    intro hc
    subst hc
    exact absurd h (by decide)
  obtain ⟨range, hrange, hfirst, hlast⟩ := (inRanges_iff (by decide) c.toNat).mp h
  have hpoint := hpoints range hrange (c.toNat - range.1) (by omega)
  rw [Nat.add_sub_cancel' hfirst] at hpoint
  rw [isWord, decide_eq_false hne, hpoint]
  rfl

/-- A text that begins and ends with characters other than blanks. -/
structure Solid (s : List Char) : Prop where
  nonempty : s ≠ []
  first : ∀ c, s.head? = some c → isBlank c = false
  last : ∀ c, s.getLast? = some c → isBlank c = false

end Text

namespace Tag.Line

open DocAtlas.Text

/-- A line without the blanks at its end, one closing delimiter, and the blanks before that. -/
inductive Strips (body : List Char) : List Char → Prop
  | closed (before after : List Char) (hend : ∀ c, body.getLast? = some c → isBlank c = false)
      (hbefore : ∀ c ∈ before, isBlank c = true) (hafter : ∀ c ∈ after, isBlank c = true) :
      Strips body (body ++ before ++ ['*', '/'] ++ after)
  | unclosed (after : List Char) (hend : ∀ c, body.getLast? = some c → isBlank c = false)
      (hopen : ¬['*', '/'] <:+ body) (hafter : ∀ c ∈ after, isBlank c = true) :
      Strips body (body ++ after)

/-- A text is blanks, at least one, and a value. -/
def Spaced (s value : List Char) : Prop :=
  ∃ blanks, blanks ≠ [] ∧ (∀ c ∈ blanks, isBlank c = true) ∧ Solid value ∧ s = blanks ++ value

/-- A text is a name, blanks and a value. -/
def Named (s : List Char) (found : List Char × List Char) : Prop :=
  ∃ rest, found.1 ≠ [] ∧ (∀ c ∈ found.1, isWord c = true) ∧ Spaced rest found.2 ∧
    s = found.1 ++ rest

/-- What the body of a line carries by the grammar: a tag if an `@` is followed by a name, blanks
and a value, without a tag the text behind the first `*` with blanks, and otherwise nothing. -/
inductive Carries (body : List Char) : Line → Prop
  | tag {name value : List Char} (hfirst : FirstMarked '@' Named body (name, value)) :
      Carries body (.tag
        { line := trimmed (String.ofList body)
          name := String.ofList name
          description := String.ofList value })
  | text {value : List Char} (htag : ∀ lead found, ¬MarkedAt '@' Named lead body found)
      (hfirst : FirstMarked '*' Spaced body value) (hstart : value.head? ≠ some '@') :
      Carries body (.text value)
  | bare (htag : ∀ lead found, ¬MarkedAt '@' Named lead body found)
      (htext : ∀ value, FirstMarked '*' Spaced body value → value.head? = some '@') :
      Carries body .bare

/-- What a line carries by the grammar. -/
def Reads (line : List Char) (found : Line) : Prop :=
  ∃ body, Strips body line ∧ Carries body found

section

variable {s body line value : List Char} {found : Line}

/-- The end of a text that does not end with a blank does not end with a blank. -/
theorem isBlank_of_getLast?_suffix (hs : ∀ c, s.getLast? = some c → isBlank c = false)
    {rest : List Char} (hrest : rest <:+ s) : ∀ c, rest.getLast? = some c → isBlank c = false := by
  intro c hc
  obtain ⟨front, rfl⟩ := hrest
  refine hs c ?_
  rw [List.getLast?_append, hc]
  rfl

/-- Blanks and a value begin with a blank. -/
theorem Spaced.exists_cons (h : Spaced s value) :
    ∃ c rest, s = c :: rest ∧ isBlank c = true := by
  obtain ⟨blanks, hne, hblanks, _, rfl⟩ := h
  obtain ⟨c, rest, rfl⟩ := List.exists_cons_of_ne_nil hne
  exact ⟨c, rest ++ value, rfl, hblanks c List.mem_cons_self⟩

/-- Blanks at the end of a line are not read. -/
theorem body_append_of_forall {after : List Char} (h : ∀ c ∈ after, isBlank c = true)
    (line : List Char) : Line.body (line ++ after) = Line.body line := by
  rw [Line.body, Line.body, trimEnd_append_of_forall h]

/-- A line that no delimiter closes is read without the blanks at its end. -/
theorem body_of_not_suffix (h : ¬['*', '/'] <:+ trimEnd line) : Line.body line = trimEnd line := by
  rw [Line.body]
  split
  · next rest heq =>
    refine absurd ⟨rest.reverse, ?_⟩ h
    rw [← List.reverse_reverse (trimEnd line), heq]
    simp
  · rfl

/-- What is found behind blanks is what the grammar says. -/
theorem afterBlanks_eq_some_iff (hs : ∀ c, s.getLast? = some c → isBlank c = false) :
    afterBlanks s = some value ↔ Spaced s value := by
  constructor
  · intro h
    obtain ⟨hne, hfirst, hsuffix⟩ := of_afterBlanks_eq_some h
    have hlast := isBlank_of_getLast?_suffix hs hsuffix
    cases s with
    | nil => simp [afterBlanks] at h
    | cons c rest =>
      have hblank : isBlank c = true := by
        by_contra hc
        simp [afterBlanks, hc] at h
      have hvalue : trimStart rest = value := by
        rw [afterBlanks, if_pos hblank] at h
        split at h
        · contradiction
        · exact Option.some.inj h
      refine ⟨c :: rest.takeWhile isBlank, by simp, ?_, ⟨hne, hfirst, hlast⟩, ?_⟩
      · intro d hd
        rcases List.mem_cons.mp hd with rfl | hd
        · exact hblank
        · exact List.all_eq_true.mp List.all_takeWhile d hd
      · rw [← hvalue, trimStart, List.cons_append, List.takeWhile_append_dropWhile]
  · intro h
    obtain ⟨blanks, hne, hblanks, hsolid, rfl⟩ := h
    obtain ⟨c, blanks, rfl⟩ := List.exists_cons_of_ne_nil hne
    rw [List.forall_mem_cons] at hblanks
    have htrim : trimStart (blanks ++ value) = value :=
      dropWhile_append_of_stop hblanks.2 hsolid.first
    rw [List.cons_append, afterBlanks, if_pos hblanks.1, htrim]
    cases value with
    | nil => exact absurd rfl hsolid.nonempty
    | cons first others => rfl

/-- What is read behind an `@` is what the grammar says. -/
theorem tagAfterAt_eq_some_iff (hs : ∀ c, s.getLast? = some c → isBlank c = false)
    (found : List Char × List Char) : tagAfterAt s = some found ↔ Named s found := by
  have hrest := isBlank_of_getLast?_suffix hs (List.dropWhile_suffix isWord)
  constructor
  · intro h
    rw [tagAfterAt] at h
    split at h
    · contradiction
    · next hname =>
      obtain ⟨value, hvalue, rfl⟩ := Option.map_eq_some_iff.mp h
      refine ⟨s.dropWhile isWord, hname, ?_, (afterBlanks_eq_some_iff hrest).mp hvalue, ?_⟩
      · intro c hc
        exact List.all_eq_true.mp List.all_takeWhile c hc
      · exact List.takeWhile_append_dropWhile.symm
  · intro h
    obtain ⟨name, value⟩ := found
    obtain ⟨rest, hname, hword, hspaced, rfl⟩ := h
    -- The name is read to its end and no further, as the blank behind it is no word character.
    have hstop : ∀ c, rest.head? = some c → isWord c = false := by
      intro c hc
      obtain ⟨first, tail, rfl, hblank⟩ := hspaced.exists_cons
      obtain rfl := Option.some.inj hc
      exact isWord_eq_false_of_isBlank hblank
    have htake := takeWhile_append_of_stop hword hstop
    have hdrop := dropWhile_append_of_stop hword hstop
    rw [hdrop] at hrest
    rw [tagAfterAt, htake, hdrop, (afterBlanks_eq_some_iff hrest).mpr hspaced]
    cases name with
    | nil => exact absurd rfl hname
    | cons first others => rfl

/-- The tag of a line is found by the search behind an `@`. -/
theorem findTag_eq_firstAfter (s : List Char) : findTag s = firstAfter '@' tagAfterAt s := by
  induction s with
  | nil => rfl
  | cons c rest ih =>
    rw [findTag, firstAfter, ih]
    cases tagAfterAt rest <;> rfl

/-- The text of a line is found by the search behind a `*`. -/
theorem findText_eq_firstAfter (s : List Char) : findText s = firstAfter '*' afterBlanks s := by
  induction s with
  | nil => rfl
  | cons c rest ih =>
    rw [findText, firstAfter, ih]
    cases afterBlanks rest <;> rfl

/-- What a body is read as is what it carries by the grammar. -/
theorem carries_iff (hbody : ∀ c, body.getLast? = some c → isBlank c = false) :
    Carries body found ↔ ofBody body = found := by
  have htags : ∀ rest, rest <:+ body → ∀ found, tagAfterAt rest = some found ↔ Named rest found :=
    fun rest hrest => tagAfterAt_eq_some_iff (isBlank_of_getLast?_suffix hbody hrest)
  have htexts : ∀ rest, rest <:+ body → ∀ found, afterBlanks rest = some found ↔ Spaced rest found :=
    fun rest hrest _ => afterBlanks_eq_some_iff (isBlank_of_getLast?_suffix hbody hrest)
  have htrimmed : String.ofList (trim body) = trimmed (String.ofList body) := by
    rw [trimmed, String.toList_ofList]
  rw [ofBody, findTag_eq_firstAfter, findText_eq_firstAfter, htrimmed]
  constructor
  · intro h
    cases h with
    | tag hfirst => rw [(firstAfter_eq_some_iff htags).mpr hfirst]
    | text htag hfirst hstart =>
      rw [(firstAfter_eq_none_iff htags).mpr htag, (firstAfter_eq_some_iff htexts).mpr hfirst]
      exact if_neg hstart
    | bare htag htext =>
      rw [(firstAfter_eq_none_iff htags).mpr htag]
      cases hfound : firstAfter '*' afterBlanks body with
      | none => rfl
      | some value => exact if_pos (htext value ((firstAfter_eq_some_iff htexts).mp hfound))
  · intro h
    subst h
    split
    · next name value htag => exact .tag ((firstAfter_eq_some_iff htags).mp htag)
    · next hnone =>
      have htag := (firstAfter_eq_none_iff htags).mp hnone
      split
      · next hnone =>
        refine .bare htag fun value hfirst => ?_
        rw [(firstAfter_eq_some_iff htexts).mpr hfirst] at hnone
        contradiction
      · next value hvalue =>
        have hfirst := (firstAfter_eq_some_iff htexts).mp hvalue
        split
        · next hstart =>
          refine .bare htag fun other hother => ?_
          rw [(firstAfter_eq_some_iff htexts).mpr hother] at hvalue
          rwa [Option.some.inj hvalue]
        · next hstart => exact .text htag hfirst hstart

/-- The part of a line that is read is what the grammar leaves of the line. -/
theorem strips_iff : Strips body line ↔ Line.body line = body := by
  constructor
  · intro h
    cases h with
    | closed before after hend hbefore hafter =>
      rw [body_append_of_forall hafter, body_append_delimiter, trimEnd_append_of_forall hbefore,
        trimEnd_eq_self hend]
    | unclosed after hend hopen hafter =>
      have htrim := trimEnd_eq_self hend
      rw [body_append_of_forall hafter, body_of_not_suffix (by rwa [htrim]), htrim]
  · intro h
    subst h
    have hend : ∀ c, (Line.body line).getLast? = some c → isBlank c = false :=
      fun _ => isBlank_of_getLast?_body line
    obtain ⟨after, hafter, hline⟩ := exists_eq_trimEnd_append line
    by_cases hclosed : ['*', '/'] <:+ trimEnd line
    · obtain ⟨front, hfront⟩ := hclosed
      obtain ⟨before, hbefore, hsplit⟩ := exists_eq_trimEnd_append front
      have hbody : Line.body line = trimEnd front := by
        rw [hline, body_append_of_forall hafter, ← hfront, body_append_delimiter]
      have hstrips := Strips.closed before after hend hbefore hafter
      rwa [hbody, ← hsplit, hfront, ← hline, ← hbody] at hstrips
    · have hbody := body_of_not_suffix hclosed
      have hstrips := Strips.unclosed after hend (by rwa [hbody]) hafter
      rwa [hbody, ← hline, ← hbody] at hstrips

/-- What a line is read as is what it carries by the grammar. -/
theorem reads_iff : Reads line found ↔ ofChars line = found := by
  have hbody : Carries (Line.body line) found ↔ ofBody (Line.body line) = found :=
    carries_iff fun _ => isBlank_of_getLast?_body line
  rw [ofChars, ← hbody]
  constructor
  · intro h
    obtain ⟨body, hstrips, hcarries⟩ := h
    rwa [strips_iff.mp hstrips]
  · intro h
    exact ⟨Line.body line, strips_iff.mpr rfl, h⟩

end

end Tag.Line

namespace ParsedComment

open DocAtlas.Tag DocAtlas.Text

/-- The lines of a comment and what each of them carries by the grammar. -/
def Reading (comment : String) (found : List Line) : Prop :=
  ∃ rows : List (List Char), rows ≠ [] ∧ (∀ row ∈ rows, '\n' ∉ row) ∧
    ['\n'].intercalate rows = comment.toList ∧ List.Forall₂ Line.Reads rows found

/-- The lines of a comment carry by the grammar what they are read as. -/
theorem reading_iff {comment : String} {found : List Line} :
    Reading comment found ↔ (lines comment.toList).map Line.ofChars = found := by
  have hreads : Line.Reads = fun line found => Line.ofChars line = found := by
    funext line found
    exact propext Line.reads_iff
  have hrows (rows : List (List Char)) :
      List.Forall₂ Line.Reads rows found ↔ rows.map Line.ofChars = found := by
    rw [hreads, ← List.forall₂_map_left_iff (f := Line.ofChars) (R := Eq), List.forall₂_eq_eq_eq]
  constructor
  · intro h
    obtain ⟨rows, hne, hnewline, hjoin, hfound⟩ := h
    rw [← hjoin, ← joinWith_eq_intercalate, lines, splitWhere_joinWith (by decide) hne]
    · exact (hrows rows).mp hfound
    · intro row hrow c hc
      exact beq_false_of_ne fun heq => hnewline row hrow (heq ▸ hc)
  · intro h
    refine ⟨lines comment.toList, splitWhere_ne_nil _ _, fun row hrow => ?_, ?_, (hrows _).mpr h⟩
    · exact newline_notMem_of_mem_lines hrow
    · rw [← joinWith_eq_intercalate, lines, joinWith_splitWhere]

/-- The value of a tag that a line carries begins and ends with no blank. -/
theorem solid_of_reads {line : List Char} {o : Occurrence} (h : Line.Reads line (.tag o)) :
    Solid o.description.toList := by
  obtain ⟨body, _, hcarries⟩ := h
  cases hcarries with
  | tag hfirst =>
    obtain ⟨_, ⟨_, _, _, _, _, ⟨_, _, _, hsolid, _⟩, _⟩, _⟩ := hfirst
    rwa [String.toList_ofList]

/-- Every comment is read as the grammar says: there is one way to say what its lines carry, and the
comment has the tags among it, grouped by name, and the texts among it, one per line. So no entry of
the table is empty, an occurrence stands under its own name, and the value of a tag is not empty and
without surrounding blanks. -/
theorem ofString_grammar (comment : String) :
    ∃ found, (∀ other, Reading comment other ↔ other = found) ∧
      ofString comment =
        { tags := Table.grouped (found.filterMap Line.occurrence?)
          text := trimmed ("\n".intercalate ((found.filterMap Line.text?).map String.ofList))
          ok := true } ∧
      ∀ entry ∈ (ofString comment).tags, entry.2 ≠ [] ∧ ∀ o ∈ entry.2,
        o.name = entry.1 ∧ o.description ≠ "" ∧ trimmed o.description = o.description := by
  refine ⟨(lines comment.toList).map Line.ofChars, fun other => reading_iff.trans eq_comm, ?_⟩
  have htext (pieces : List (List Char)) : String.ofList (trim (joinWith ['\n'] pieces)) =
      trimmed ("\n".intercalate (pieces.map String.ofList)) := by
    have hchars : (pieces.map String.ofList).map String.toList = pieces := by simp
    rw [trimmed, String.toList_intercalate, hchars, joinWith_eq_intercalate]
    rfl
  have hofString : ofString comment =
      { tags := Table.grouped (((lines comment.toList).map Line.ofChars).filterMap Line.occurrence?)
        text := trimmed ("\n".intercalate
          ((((lines comment.toList).map Line.ofChars).filterMap Line.text?).map String.ofList)) } := by
    rw [ofString, ofChars, ofLines, Table.ofOccurrences_eq_grouped, htext]
  refine ⟨hofString, fun entry hentry => ?_⟩
  rw [hofString] at hentry
  obtain ⟨hne, hgroup⟩ := Table.of_mem_grouped hentry
  refine ⟨hne, fun o ho => ?_⟩
  obtain ⟨hmem, hname⟩ := hgroup o ho
  obtain ⟨found, hfound, hoccurrence⟩ := List.mem_filterMap.mp hmem
  obtain ⟨line, _, hline⟩ := List.mem_map.mp hfound
  have hreads : Line.Reads line (.tag o) := by
    rw [Line.reads_iff, hline, Line.of_occurrence?_eq_some hoccurrence]
  have hsolid := solid_of_reads hreads
  refine ⟨hname, fun hempty => hsolid.nonempty (String.toList_eq_nil_iff.mpr hempty), ?_⟩
  rw [trimmed, trim_eq_self hsolid.first hsolid.last, String.ofList_toList]

end ParsedComment

end DocAtlas
