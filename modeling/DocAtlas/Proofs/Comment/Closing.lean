import DocAtlas.Proofs.Comment.Grammar

/-!
# Where a block is closed

A block between `/**` and `*/` holds the closing delimiter as its last two characters. It holds it a
second time exactly if it begins with `/**/`, as the delimiter that closes it is looked for behind
the opening only. Such a block runs past the end of its comment, and what is read of it may be code
that stands between two comments. Of every other block nothing is read that stands behind the first
delimiter.
-/

namespace DocAtlas

namespace ParsedComment

open DocAtlas.Tag DocAtlas.Text

/-- A delimiter behind a text that holds none adds nothing to what is read. -/
theorem ofChars_append_delimiter {s : List Char} (h : ¬['*', '/'] <:+: s) :
    ofChars (s ++ ['*', '/']) = ofChars s := by
  obtain hnil | ⟨front, last, hlines⟩ := List.eq_nil_or_concat' (lines s)
  · exact absurd hnil (splitWhere_ne_nil _ s)
  · have hlast : last <:+: s := isInfix_of_mem_lines (by simp [hlines])
    have hopen : ¬['*', '/'] <:+ trimEnd last := by
      intro hsuffix
      exact h (hsuffix.isInfix.trans ((trimEnd_isPrefix last).isInfix.trans hlast))
    have hline : Line.ofChars (last ++ ['*', '/']) = Line.ofChars last := by
      rw [Line.ofChars, Line.ofChars, Line.body_append_delimiter, Line.body_of_not_suffix hopen]
    rw [ofChars, ofChars, lines_append hlines (by decide), hlines, List.map_append, List.map_append,
      List.map_singleton, List.map_singleton, hline]

end ParsedComment

namespace Comment

open DocAtlas.Text

section

variable {inside after : List Char} (h : ¬BeginsIn ['*', '/'] inside (['*', '/'] ++ after))
include h

/-- Where the delimiter is found in a block. -/
theorem isPrefix_drop_block_iff (n : ℕ) :
    ['*', '/'] <+: (['/', '*', '*'] ++ (inside ++ ['*', '/'])).drop n ↔
      n + 2 = (['/', '*', '*'] ++ (inside ++ ['*', '/'])).length ∨
        n = 2 ∧ ['/', '*', '*', '/'] <+: ['/', '*', '*'] ++ (inside ++ ['*', '/']) := by
  have hend := isPrefix_drop_append_iff (by simp)
    fun hbegin => h (BeginsIn.append_right hbegin after)
  match n with
  | 0 => simp
  | 1 => simp
  | 2 => simp
  | n + 3 =>
    have hdrop : (['/', '*', '*'] ++ (inside ++ ['*', '/'])).drop (n + 3) =
        (inside ++ ['*', '/']).drop n := rfl
    rw [hdrop, hend n]
    simp

/-- What stands before the first delimiter of a block that does not begin with `/**/`. -/
theorem cut?_block (hopen : ¬['/', '*', '*', '/'] <+: ['/', '*', '*'] ++ (inside ++ ['*', '/'])) :
    cut? ['*', '/'] (['/', '*', '*'] ++ (inside ++ ['*', '/'])) =
      some (['/', '*', '*'] ++ inside, []) := by
  have hinside : ¬BeginsIn ['*', '/'] inside ['*', '/'] := fun hbegin => h (hbegin.append_right after)
  rw [cut?_eq_some_iff (by simp)]
  refine ⟨by simp, ?_⟩
  simpa [beginsIn_cons_iff, hinside] using hopen

end

/-- A block between `/**` and `*/` is closed by its last two characters, and it holds the delimiter
at one more place exactly if it begins with `/**/`: there the comment ends, and the block goes on.
If the block does not begin so, nothing of it is read that stands behind the first delimiter. -/
theorem blocks_closed (content : String) (block : List Char)
    (h : block ∈ Style.doc.blocks content.toList) :
    (∀ n, ['*', '/'] <+: block.drop n ↔
      n + 2 = block.length ∨ n = 2 ∧ ['/', '*', '*', '/'] <+: block) ∧
    (¬['/', '*', '*', '/'] <+: block →
      ParsedComment.ofChars block = ParsedComment.ofChars (before ['*', '/'] block)) := by
  obtain ⟨after, body, rfl, inside, rfl, hinside⟩ := Style.exists_isBlock_of_mem_blocks h
  refine ⟨isPrefix_drop_block_iff hinside, fun hopen => ?_⟩
  have hcut := cut?_block hinside hopen
  obtain ⟨heq, hfront⟩ := (cut?_eq_some_iff (by simp)).mp hcut
  have hbefore : before ['*', '/'] (Style.doc.opening ++ (inside ++ ['*', '/'])) =
      ['/', '*', '*'] ++ inside := by
    rw [before, Style.opening, hcut]
  rw [hbefore, Style.opening, heq, List.append_nil, ParsedComment.ofChars_append_delimiter]
  exact fun hpart => hfront (beginsIn_of_isInfix (by simp) hpart _)

/-- A block that nearly closes at some places is closed by the last of its stars, and it is read as
if that star and the slash behind it were not there. -/
theorem blocks_closed_stars :
    let block := "/** /* / @a * /b **/".toList
    block ∈ Style.doc.blocks "/* x */ /** /* / @a * /b **/ */".toList ∧
      (∀ n, ['*', '/'] <+: block.drop n ↔
        n + 2 = block.length ∨ n = 2 ∧ ['/', '*', '*', '/'] <+: block) ∧
      ParsedComment.ofChars block = ParsedComment.ofChars "/** /* / @a * /b *".toList := by
  intro block
  have hblock : block ∈ Style.doc.blocks "/* x */ /** /* / @a * /b **/ */".toList := by
    decide +kernel
  obtain ⟨hclosings, hread⟩ := blocks_closed _ block hblock
  exact ⟨hblock, hclosings, hread (by decide)⟩

/-- A block that begins with `/**/` goes on to the end of the next comment, and the code between the
two is read as documentation. -/
theorem blocks_run_past :
    let source : SourceFile :=
      { path := "a.ts"
        content := "run(/**/); // mail me@home now\n/** @summary Runs. */"
        created := ""
        modified := "" }
    (∃ block ∈ Style.doc.blocks source.content.toList, ∃ n,
      ['*', '/'] <+: block.drop n ∧ n + 2 ≠ block.length) ∧
    (extract Nat.repr .doc [source]).map (fun comment => comment.tags.values "home") = [["now"]] := by
  intro source
  have hblock : "/**/); // mail me@home now\n/** @summary Runs. */".toList ∈
      Style.doc.blocks source.content.toList := by
    decide +kernel
  exact ⟨⟨_, hblock, 2, by decide, by decide⟩, by decide +kernel⟩

end Comment

end DocAtlas
