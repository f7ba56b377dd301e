import DocAtlas.Proofs.Comment.Blocks
import DocAtlas.Proofs.Comment.RoundTrip

/-!
# Values that are read

Whatever a source text holds, the value of a tag that is read from it can be written in a block
again: it is not empty, no blanks surround it, it stands on one line, and no block ends in it. The
last of these holds because a block ends at the first delimiter behind its opening, and an `@`
stands behind the opening.
-/

namespace DocAtlas

namespace Text

/-- A part that begins with a character which a text does not hold lies behind the text. -/
theorem isInfix_of_isInfix_append {c : Char} {part s t : List Char} (hc : c ∉ s)
    (h : c :: part <:+: s ++ t) : c :: part <:+: t := by
  induction s with
  | nil => exact h
  | cons d s ih =>
    rw [List.mem_cons, not_or] at hc
    rw [List.cons_append, List.infix_cons_iff] at h
    rcases h with hstart | hlater
    · exact absurd (List.cons_prefix_cons.mp hstart).1 hc.1
    · exact ih hc.2 hlater

/-- A piece is part of the joined pieces. -/
theorem isInfix_joinWith (separator : List Char) {pieces : List (List Char)} {piece : List Char}
    (h : piece ∈ pieces) : piece <:+: joinWith separator pieces := by
  induction pieces with
  | nil => exact absurd h List.not_mem_nil
  | cons first rest ih =>
    cases rest with
    | nil =>
      rw [List.mem_singleton.mp h]
      exact List.infix_rfl
    | cons second others =>
      rw [joinWith, List.append_assoc]
      rcases List.mem_cons.mp h with rfl | hrest
      · exact (List.prefix_append piece _).isInfix
      · refine (ih hrest).trans (List.IsSuffix.isInfix ?_)
        exact (List.suffix_append _ _).trans (List.suffix_append _ _)

/-- A line of a text is part of the text. -/
theorem isInfix_of_mem_lines {s line : List Char} (h : line ∈ lines s) : line <:+: s := by
  have hpart := isInfix_joinWith ['\n'] h
  rwa [lines, joinWith_splitWhere] at hpart

/-- A line goes on to the newline. -/
theorem newline_notMem_of_mem_lines {s line : List Char} (h : line ∈ lines s) : '\n' ∉ line := by
  intro hmem
  have hpiece := forall_mem_splitWhere _ s line h '\n' hmem
  contradiction

/-- What stands behind a text and goes on to no other line belongs to the last line. -/
theorem lines_append {s t last : List Char} {front : List (List Char)}
    (hs : lines s = front ++ [last]) (ht : '\n' ∉ t) : lines (s ++ t) = front ++ [last ++ t] := by
  have hjoin : s ++ t = joinWith ['\n'] (front ++ [last ++ t]) := by
    have hs' := joinWith_splitWhere '\n' s
    rw [← lines, hs] at hs'
    rw [← hs']
    cases front with
    | nil => rfl
    | cons first rest => rw [joinWith_cons_append, joinWith_cons_append, List.append_assoc]
  rw [hjoin, lines]
  refine splitWhere_joinWith (by decide) (by simp) fun piece hpiece c hc => ?_
  rw [beq_eq_false_iff_ne]
  intro hnewline
  subst hnewline
  rcases List.mem_append.mp hpiece with hfront | hlast
  · refine newline_notMem_of_mem_lines (s := s) ?_ hc
    rw [hs]
    exact List.mem_append_left _ hfront
  · rw [List.mem_singleton.mp hlast, List.mem_append] at hc
    refine hc.elim (newline_notMem_of_mem_lines (s := s) ?_) ht
    rw [hs]
    exact List.mem_append_right _ List.mem_cons_self

end Text

namespace Tag.Line

open DocAtlas.Text

/-- The part of a line that is read is a beginning of the line. -/
theorem body_isPrefix (line : List Char) : body line <+: line := by
  rw [body]
  split
  · next rest heq =>
    have hline : trimEnd line = rest.reverse ++ ['*', '/'] := by
      rw [← List.reverse_reverse (trimEnd line), heq]
      simp
    refine (trimEnd_isPrefix _).trans (List.IsPrefix.trans ?_ (trimEnd_isPrefix line))
    rw [hline]
    exact List.prefix_append _ _
  · exact trimEnd_isPrefix line

/-- The part of a line that is read does not end with a blank. -/
theorem isBlank_of_getLast?_body (line : List Char) {c : Char}
    (h : (body line).getLast? = some c) : isBlank c = false := by
  rw [body] at h
  split at h <;> exact isBlank_of_getLast?_trimEnd h

/-- A delimiter at the end of a line is not read. -/
theorem body_append_delimiter (line : List Char) :
    body (line ++ ['*', '/']) = trimEnd line := by
  have htrim : trimEnd (line ++ ['*', '/']) = line ++ ['*', '/'] := by
    have hlast := trimEnd_concat (c := '/') (by decide) (line ++ ['*'])
    simpa using hlast
  rw [body, htrim]
  simp

/-- What is found behind blanks is not empty, does not begin with a blank and ends the text. -/
theorem of_afterBlanks_eq_some {s found : List Char} (h : afterBlanks s = some found) :
    found ≠ [] ∧ (∀ c, found.head? = some c → isBlank c = false) ∧ found <:+ s := by
  cases s with
  | nil => simp [afterBlanks] at h
  | cons c rest =>
    rw [afterBlanks] at h
    split at h
    · split at h
      · contradiction
      · next hne =>
        obtain rfl := Option.some.inj h
        refine ⟨hne, fun c hc => isBlank_of_head?_trimStart hc, ?_⟩
        exact (List.dropWhile_suffix _).trans (List.suffix_cons c rest)
    · contradiction

/-- The value of the first tag of a text ends the text behind an `@`, is not empty and does not
begin with a blank. -/
theorem of_findTag_eq_some {s name value : List Char} (h : findTag s = some (name, value)) :
    value ≠ [] ∧ (∀ c, value.head? = some c → isBlank c = false) ∧
      ∃ tail, '@' :: tail <:+ s ∧ value <:+ tail := by
  have hlater {c : Char} {rest : List Char}
      (hrest : ∃ tail, '@' :: tail <:+ rest ∧ value <:+ tail) :
      ∃ tail, '@' :: tail <:+ c :: rest ∧ value <:+ tail := by
    obtain ⟨tail, htail, hvalue⟩ := hrest
    exact ⟨tail, htail.trans (List.suffix_cons c rest), hvalue⟩
  induction s with
  | nil => simp [findTag] at h
  | cons c rest ih =>
    rw [findTag] at h
    split at h
    · next hc =>
      subst hc
      split at h
      · next found htag =>
        obtain rfl := Option.some.inj h
        rw [tagAfterAt] at htag
        split at htag
        · contradiction
        · obtain ⟨found, hfound, heq⟩ := Option.map_eq_some_iff.mp htag
          obtain ⟨rfl, rfl⟩ := Prod.mk.inj heq
          obtain ⟨hne, hhead, hsuffix⟩ := of_afterBlanks_eq_some hfound
          exact ⟨hne, hhead, rest, List.suffix_rfl, hsuffix.trans (List.dropWhile_suffix _)⟩
      · obtain ⟨hne, hhead, hrest⟩ := ih h
        exact ⟨hne, hhead, hlater hrest⟩
    · obtain ⟨hne, hhead, hrest⟩ := ih h
      exact ⟨hne, hhead, hlater hrest⟩

/-- The occurrence that a line gives is the tag it holds. -/
theorem of_occurrence?_eq_some {line : Line} {o : Occurrence} (h : line.occurrence? = some o) :
    line = .tag o := by
  cases line with
  | tag other => rw [Option.some.inj h]
  | text content => contradiction
  | bare => contradiction

end Tag.Line

namespace Comment

open DocAtlas.Tag DocAtlas.Text

/-- Every block of a text is ended at the first delimiter behind its opening. -/
theorem exists_of_mem_blocks {s block : List Char} (h : block ∈ Style.doc.blocks s) :
    ∃ inside, block = ['/', '*', '*'] ++ (inside ++ ['*', '/']) ∧ ¬['*', '/'] <:+: inside := by
  obtain ⟨after, body, rfl, inside, rfl, hinside⟩ := Style.exists_isBlock_of_mem_blocks h
  exact ⟨inside, rfl, fun hpart => hinside (beginsIn_of_isInfix (by simp) hpart _)⟩

/-- What is read of the lines of a block stands before the delimiter that ends it. -/
theorem body_isInfix_of_mem_lines {s line : List Char} (h : line ∈ lines (s ++ ['*', '/'])) :
    Line.body line <:+: s := by
  obtain hnil | ⟨front, last, hlines⟩ := List.eq_nil_or_concat' (lines s)
  · exact absurd hnil (splitWhere_ne_nil _ s)
  · have hmem {line : List Char} (hline : line ∈ front ++ [last]) : line <:+: s :=
      isInfix_of_mem_lines (hlines ▸ hline)
    rw [lines_append hlines (by decide), List.mem_append, List.mem_singleton] at h
    rcases h with hfront | rfl
    · exact (Line.body_isPrefix line).isInfix.trans (hmem (List.mem_append_left _ hfront))
    · rw [Line.body_append_delimiter]
      exact (trimEnd_isPrefix last).isInfix.trans
        (hmem (List.mem_append_right _ List.mem_cons_self))

/-- A tag that is read from a line of a block has a value that stands in the line and can be written
in a block. -/
theorem exists_phrase_of_mem_lines {s block line : List Char} (hblock : block ∈ Style.doc.blocks s)
    (hline : line ∈ lines block) {o : Occurrence} (ho : Line.ofChars line = .tag o) :
    ∃ phrase : Phrase, phrase.text = o.description ∧ o.description.toList <:+: line := by
  obtain ⟨inside, rfl, hclosed⟩ := exists_of_mem_blocks hblock
  have hbody : Line.body line <:+: ['/', '*', '*'] ++ inside := by
    rw [← List.append_assoc] at hline
    exact body_isInfix_of_mem_lines hline
  rw [Line.ofChars, Line.ofBody] at ho
  split at ho
  · next name value htag =>
    obtain rfl := Line.tag.inj ho
    obtain ⟨hne, hhead, tail, htail, hvalue⟩ := Line.of_findTag_eq_some htag
    have hend : value <:+ Line.body line :=
      hvalue.trans ((List.suffix_cons '@' tail).trans htail)
    have hlast : ∀ c, value.getLast? = some c → isBlank c = false := by
      intro c hc
      obtain ⟨front, hfront⟩ := hend
      refine Line.isBlank_of_getLast?_body line ?_
      rw [← hfront, List.getLast?_append, hc]
      rfl
    have hnewline : '\n' ∉ value := by
      intro hmem
      refine newline_notMem_of_mem_lines hline ?_
      exact (Line.body_isPrefix line).subset (hend.subset hmem)
    have hunclosed : ¬['*', '/'] <:+: value := by
      -- The `@` is no part of the opening, so the value lies behind the opening.
      intro hpart
      have hinside := isInfix_of_isInfix_append (by decide) (htail.isInfix.trans hbody)
      have hvalue' := hvalue.isInfix.trans ((List.suffix_cons '@' tail).isInfix.trans hinside)
      exact hclosed (hpart.trans hvalue')
    refine ⟨⟨String.ofList value, ?_, ?_, ?_, ?_⟩, rfl, ?_⟩
    · simpa using hne
    · rw [trimmed, String.toList_ofList, trim_eq_self hhead hlast]
    · rwa [String.toList_ofList]
    · rwa [String.toList_ofList]
    · rw [String.toList_ofList]
      exact hend.isInfix.trans (Line.body_isPrefix line).isInfix
  · split at ho
    · contradiction
    · split at ho <;> contradiction

/-- The values of tags that are read from sources stand in them and can be written in a block again. -/
theorem exists_source_of_mem_values {supply : ℕ → String} {sources : List SourceFile}
    {comment : Comment} (hcomment : comment ∈ extract supply .doc sources) {name value : String}
    (hvalue : value ∈ comment.tags.values name) :
    ∃ phrase : Phrase, phrase.text = value ∧
      ∃ source ∈ sources, value.toList <:+: source.content.toList := by
  obtain ⟨index, hindex, rfl⟩ := List.mem_mapIdx.mp hcomment
  obtain ⟨source, hsource, hblock⟩ := List.mem_flatMap.mp (List.getElem_mem hindex)
  obtain ⟨block, hblock, heq⟩ := List.mem_map.mp hblock
  rw [← heq] at hvalue
  change value ∈ (Table.ofOccurrences
    (((lines block).map Line.ofChars).filterMap Line.occurrence?)).values name at hvalue
  rw [Table.values_ofOccurrences] at hvalue
  obtain ⟨o, ho, rfl⟩ := List.mem_map.mp hvalue
  obtain ⟨found, hfound, hoccurrence⟩ := List.mem_filterMap.mp (List.mem_filter.mp ho).1
  obtain ⟨line, hline, rfl⟩ := List.mem_map.mp hfound
  obtain ⟨phrase, hphrase, hinfix⟩ :=
    exists_phrase_of_mem_lines hblock hline (Line.of_occurrence?_eq_some hoccurrence)
  refine ⟨phrase, hphrase, source, hsource, hinfix.trans ?_⟩
  exact (isInfix_of_mem_lines hline).trans (Style.isInfix_of_mem_blocks hblock)

/-- The values of tags that are read from sources can be written in a block again. -/
theorem exists_phrase_of_mem_values {supply : ℕ → String} {sources : List SourceFile}
    {comment : Comment} (hcomment : comment ∈ extract supply .doc sources) {name value : String}
    (hvalue : value ∈ comment.tags.values name) : ∃ phrase : Phrase, phrase.text = value := by
  obtain ⟨phrase, hphrase, -⟩ := exists_source_of_mem_values hcomment hvalue
  exact ⟨phrase, hphrase⟩

end Comment

end DocAtlas
