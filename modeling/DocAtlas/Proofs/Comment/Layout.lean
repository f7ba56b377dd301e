import DocAtlas.Proofs.Comment.Merge
import Mathlib.Logic.Relation

/-!
# The layout of a comment

How the lines of a comment are indented and what blanks they end with makes no difference to what
the comment says. Blanks at the end of a line are not read. Blanks at its start are read, unless the
line holds nothing but blanks and a delimiter, but they hold no mark: no tag and no text begins in
them, and the line that is recorded with a tag is trimmed.
-/

namespace DocAtlas

open DocAtlas.Tag DocAtlas.Text

namespace Tag.Line

section

variable {before : List Char} (h : ∀ c ∈ before, isBlank c = true)

include h

/-- No tag begins in blanks. -/
theorem findTag_append_of_forall (s : List Char) : findTag (before ++ s) = findTag s := by
  induction before with
  | nil => rfl
  | cons c rest ih =>
    rw [List.forall_mem_cons] at h
    have hc : c ≠ '@' := by
      intro heq
      subst heq
      exact absurd h.1 (by decide)
    rw [List.cons_append, findTag, if_neg hc, ih h.2]

/-- No text begins in blanks. -/
theorem findText_append_of_forall (s : List Char) : findText (before ++ s) = findText s := by
  induction before with
  | nil => rfl
  | cons c rest ih =>
    rw [List.forall_mem_cons] at h
    have hc : c ≠ '*' := by
      intro heq
      subst heq
      exact absurd h.1 (by decide)
    rw [List.cons_append, findText, if_neg hc, ih h.2]

/-- Blanks before the body of a line do not change what it carries. -/
theorem ofBody_append_of_forall (body : List Char) : ofBody (before ++ body) = ofBody body := by
  rw [ofBody, ofBody, findTag_append_of_forall h, findText_append_of_forall h,
    trim_append_of_forall h]

/-- No delimiter begins in blanks. -/
theorem suffix_of_suffix_append {s : List Char} (hsuffix : ['*', '/'] <:+ before ++ s) :
    ['*', '/'] <:+ s := by
  obtain ⟨front, heq⟩ := hsuffix
  rcases List.append_eq_append_iff.mp heq with ⟨more, rfl, hs⟩ | ⟨more, _, rfl⟩
  · cases more with
    | nil => rw [List.nil_append] at hs; exact hs ▸ List.suffix_rfl
    | cons c more =>
      obtain ⟨rfl, _⟩ := List.cons.inj hs
      have hstar := h '*' (by simp)
      contradiction
  · exact List.suffix_append more _

/-- Blanks before a line stand before its body, or are not read either. -/
theorem exists_body_append (line : List Char) :
    ∃ front, (∀ c ∈ front, isBlank c = true) ∧
      Line.body (before ++ line) = front ++ Line.body line := by
  obtain ⟨after, hafter, hline⟩ := exists_eq_trimEnd_append line
  have hbody : Line.body (before ++ line) = Line.body (before ++ trimEnd line) := by
    rw [hline, ← List.append_assoc, body_append_of_forall hafter, ← hline]
  rw [hbody]
  by_cases hclosed : ['*', '/'] <:+ trimEnd line
  · -- The delimiter is dropped with and without the blanks, and then the line is trimmed again.
    obtain ⟨content, hcontent⟩ := hclosed
    obtain ⟨front, hfront, htrim⟩ := exists_trimEnd_append h content
    have htrimmed : Line.body line = trimEnd content := by
      rw [hline, body_append_of_forall hafter, ← hcontent, body_append_delimiter]
    refine ⟨front, hfront, ?_⟩
    rw [htrimmed, ← hcontent, ← List.append_assoc, body_append_delimiter, htrim]
  · obtain ⟨front, hfront, htrim⟩ := exists_trimEnd_append h (trimEnd line)
    have hself : trimEnd (trimEnd line) = trimEnd line :=
      trimEnd_eq_self fun _ => isBlank_of_getLast?_trimEnd
    rw [hself] at htrim
    have hopen : ¬['*', '/'] <:+ trimEnd (before ++ trimEnd line) := by
      rw [htrim]
      exact fun hsuffix => hclosed (suffix_of_suffix_append hfront hsuffix)
    exact ⟨front, hfront, by rw [body_of_not_suffix hopen, htrim, body_of_not_suffix hclosed]⟩

/-- Blanks at the start of a line do not change what it carries. -/
theorem ofChars_append_left (line : List Char) : ofChars (before ++ line) = ofChars line := by
  obtain ⟨front, hfront, hbody⟩ := exists_body_append h line
  rw [ofChars, ofChars, hbody, ofBody_append_of_forall hfront]

/-- Blanks at the end of a line do not change what it carries. -/
theorem ofChars_append_right (line : List Char) : ofChars (line ++ before) = ofChars line := by
  rw [ofChars, ofChars, body_append_of_forall h]

end

end Tag.Line

namespace ParsedComment

/-- Blanks that can be put at an end of a line: there is no newline among them. -/
def IsIndent (blanks : List Char) : Prop :=
  ∀ c ∈ blanks, isBlank c = true ∧ c ≠ '\n'

-- Named, as a search might test all characters there are in place of those of the list.
instance (blanks : List Char) : Decidable (IsIndent blanks) :=
  List.decidableBAll (fun c => isBlank c = true ∧ c ≠ '\n') blanks

section

variable {blanks : List Char} (h : IsIndent blanks)

include h

/-- Blanks at the start of the first line of a block do not change what its lines carry. -/
theorem carried_append_left (block : List Char) : carried (blanks ++ block) = carried block := by
  have hnewline : '\n' ∉ blanks := fun hmem => (h '\n' hmem).2 rfl
  obtain ⟨first, rest, hlines⟩ := List.exists_cons_of_ne_nil (splitWhere_ne_nil (· == '\n') block)
  rw [carried, carried, lines, lines, splitWhere_append_of_not_mem hnewline hlines, hlines,
    List.map_cons, List.map_cons, Line.ofChars_append_left fun c hc => (h c hc).1]

/-- Blanks at the end of the last line of a block do not change what its lines carry. -/
theorem carried_append_right (block : List Char) : carried (block ++ blanks) = carried block := by
  have hnewline : '\n' ∉ blanks := fun hmem => (h '\n' hmem).2 rfl
  obtain hnil | ⟨front, last, hlines⟩ := List.eq_nil_or_concat' (lines block)
  · exact absurd hnil (splitWhere_ne_nil _ block)
  · rw [carried, carried, lines_append hlines hnewline, hlines, List.map_append, List.map_append,
      List.map_singleton, List.map_singleton, Line.ofChars_append_right fun c hc => (h c hc).1]

end

/-- One comment is another one with blanks added at the start or at the end of one of its lines. -/
inductive AddsBlanks : String → String → Prop
  | start (front blanks rest : String) (hblanks : IsIndent blanks.toList)
      (hfront : front = "" ∨ ∃ before, front = before ++ "\n") :
      AddsBlanks (front ++ rest) (front ++ blanks ++ rest)
  | finish (front blanks rest : String) (hblanks : IsIndent blanks.toList)
      (hrest : rest = "" ∨ ∃ after, rest = "\n" ++ after) :
      AddsBlanks (front ++ rest) (front ++ blanks ++ rest)

/-- One comment is made from another one by adding and removing blanks at the starts and the ends of
lines, any number of times. -/
def SameButLayout : String → String → Prop :=
  Relation.EqvGen AddsBlanks

/-- Blanks that are added at an end of a line do not change what the lines carry. -/
theorem carried_eq_of_addsBlanks {first second : String} (h : AddsBlanks first second) :
    carried first.toList = carried second.toList := by
  cases h with
  | start front blanks rest hblanks hfront =>
    rcases hfront with rfl | ⟨before, rfl⟩
    · simp [carried_append_left hblanks]
    · have hfirst : (before ++ "\n" ++ rest).toList = before.toList ++ '\n' :: rest.toList := by
        simp
      have hsecond : (before ++ "\n" ++ blanks ++ rest).toList =
          before.toList ++ '\n' :: (blanks.toList ++ rest.toList) := by
        simp
      rw [hfirst, hsecond, carried_append_newline, carried_append_newline,
        carried_append_left hblanks]
  | finish front blanks rest hblanks hrest =>
    rcases hrest with rfl | ⟨after, rfl⟩
    · simp [carried_append_right hblanks]
    · have hfirst : (front ++ ("\n" ++ after)).toList = front.toList ++ '\n' :: after.toList := by
        simp
      have hsecond : (front ++ blanks ++ ("\n" ++ after)).toList =
          (front.toList ++ blanks.toList) ++ '\n' :: after.toList := by
        simp
      rw [hfirst, hsecond, carried_append_newline, carried_append_newline,
        carried_append_right hblanks]

/-- The layout of a comment does not matter: whatever blanks are added or removed at the starts and
the ends of its lines, its tags, with the lines that are recorded for them, and its text stay the
same. -/
theorem ofString_eq_of_sameButLayout {first second : String} (h : SameButLayout first second) :
    ofString first = ofString second := by
  have hcarried : carried first.toList = carried second.toList := by
    induction h with
    | rel first second h => exact carried_eq_of_addsBlanks h
    | refl comment => rfl
    | symm first second _ ih => exact ih.symm
    | trans first second third _ _ ih ih' => exact ih.trans ih'
  rw [ofString, ofString, ofChars_eq_ofLines, ofChars_eq_ofLines, hcarried]

/-- A comment with carriage returns at the ends of its lines, indented by a tab and a no-break
space, says what it says without them. -/
theorem ofString_eq_of_sameButLayout_crlf :
    SameButLayout "/**\n * @see a\n*/" "/**\r\n\t\xa0 * @see a\r\n*/" ∧
      ofString "/**\n * @see a\n*/" = ofString "/**\r\n\t\xa0 * @see a\r\n*/" ∧
      (ofString "/**\r\n\t\xa0 * @see a\r\n*/").tags =
        [("see", [{ line := "* @see a", name := "see", description := "a" }])] := by
  have hsame : SameButLayout "/**\n * @see a\n*/" "/**\r\n\t\xa0 * @see a\r\n*/" := by
    have hopening : AddsBlanks "/**\n * @see a\n*/" "/**\r\n * @see a\n*/" :=
      .finish "/**" "\r" "\n * @see a\n*/" (by decide) (.inr ⟨" * @see a\n*/", rfl⟩)
    have hindent : AddsBlanks "/**\r\n * @see a\n*/" "/**\r\n\t\xa0 * @see a\n*/" :=
      .start "/**\r\n" "\t\xa0" " * @see a\n*/" (by decide) (.inr ⟨"/**\r", rfl⟩)
    have hline : AddsBlanks "/**\r\n\t\xa0 * @see a\n*/" "/**\r\n\t\xa0 * @see a\r\n*/" :=
      .finish "/**\r\n\t\xa0 * @see a" "\r" "\n*/" (by decide) (.inr ⟨"*/", rfl⟩)
    exact (Relation.EqvGen.rel _ _ hopening).trans _ _ _
      ((Relation.EqvGen.rel _ _ hindent).trans _ _ _ (.rel _ _ hline))
  exact ⟨hsame, ofString_eq_of_sameButLayout hsame, by decide⟩

end ParsedComment

end DocAtlas
