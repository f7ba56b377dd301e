import DocAtlas.Comment.Basic
import DocAtlas.Proofs.Text.Cut

/-!
# The blocks of a source text

A source text is cut into gaps and blocks: no block opens in a gap that a block follows, a block
ends at its first end, and nothing that opens in the last gap has an end. There is exactly one such
cutting, for each style of comments, and the scanner gives its blocks. The gaps are unique because
two cuttings must have their first block where the opening is found first. The scanner goes on
behind an opening without an end; no block can follow it there, as the end of that block would have
been its end too.
-/

namespace DocAtlas

namespace Comment

open DocAtlas.Text

namespace Style

/-- Does a text hold an end for a block that was opened before it? Every line has an end. -/
def EndsIn : Style → List Char → Prop
  | slashes, _ => True
  | _, s => ['*', '/'] <:+: s

/-- Is a text, followed by another one, the rest of a block behind its opening? A line goes on to
the newline, other blocks to the first delimiter. -/
def IsBody : Style → List Char → List Char → Prop
  | slashes, body, after => '\n' ∉ body ∧ ∀ c, after.head? = some c → c = '\n'
  | _, body, after => ∃ inside, body = inside ++ ['*', '/'] ∧
      ¬BeginsIn ['*', '/'] inside (['*', '/'] ++ after)

/-- Is a text, followed by another one, a block? -/
def IsBlock (style : Style) (block after : List Char) : Prop :=
  ∃ body, block = style.opening ++ body ∧ style.IsBody body after

/-- A text cut into gaps and blocks: the blocks, each with the gap before it, and the gap behind the
last block. -/
structure Cutting where
  parts : List (List Char × List Char)
  last : List Char

/-- The blocks of a cutting. -/
def Cutting.blocks (cutting : Cutting) : List (List Char) :=
  cutting.parts.map Prod.snd

/-- Is a text cut into gaps and blocks in this way? Nothing opens in a gap before a block, and
nothing that opens in the last gap has an end. -/
inductive CutsTo (style : Style) : List Char → Cutting → Prop
  | last {gap : List Char}
      (hgap : ∀ rest, rest <:+ gap → style.opening <+: rest → ¬style.EndsIn (rest.drop 3)) :
      CutsTo style gap ⟨[], gap⟩
  | block {gap block rest : List Char} {cutting : Cutting}
      (hgap : ¬BeginsIn style.opening gap (block ++ rest)) (hblock : style.IsBlock block rest)
      (hrest : CutsTo style rest cutting) :
      CutsTo style (gap ++ (block ++ rest)) ⟨(gap, block) :: cutting.parts, cutting.last⟩

section

variable {style : Style} {s body block after rest : List Char}

/-- The rest of a block is what is read behind the opening. -/
theorem body?_eq_some_iff :
    style.body? s = some (body, after) ↔ s = body ++ after ∧ style.IsBody body after := by
  have hdelimited : (cut? ['*', '/'] s).map (fun found => (found.1 ++ ['*', '/'], found.2)) =
      some (body, after) ↔ s = body ++ after ∧ ∃ inside, body = inside ++ ['*', '/'] ∧
        ¬BeginsIn ['*', '/'] inside (['*', '/'] ++ after) := by
    constructor
    · intro h
      obtain ⟨⟨inside, rest⟩, hcut, heq⟩ := Option.map_eq_some_iff.mp h
      obtain ⟨rfl, rfl⟩ := Prod.mk.inj heq
      obtain ⟨hs, hinside⟩ := (cut?_eq_some_iff (by simp)).mp hcut
      exact ⟨by rw [hs, List.append_assoc], inside, rfl, hinside⟩
    · intro h
      obtain ⟨hs, inside, rfl, hinside⟩ := h
      rw [List.append_assoc] at hs
      rw [(cut?_eq_some_iff (by simp)).mpr ⟨hs, hinside⟩]
      rfl
  cases style with
  | doc => exact hdelimited
  | bang => exact hdelimited
  | slashes =>
    rw [body?, Option.some.injEq, Prod.mk.injEq]
    constructor
    · intro h
      obtain ⟨rfl, rfl⟩ := h
      refine ⟨List.takeWhile_append_dropWhile.symm, fun hmem => ?_, fun c hc => ?_⟩
      · have hnewline := List.all_eq_true.mp List.all_takeWhile '\n' hmem
        contradiction
      · have hnot := List.head?_dropWhile_not (· != '\n') s
        simpa [hc] using hnot
    · intro h
      obtain ⟨rfl, hbody, hafter⟩ := h
      have hinside : ∀ c ∈ body, (c != '\n') = true := by
        intro c hc
        exact bne_iff_ne.mpr fun heq => hbody (heq ▸ hc)
      have hstop : ∀ c, after.head? = some c → (c != '\n') = false := by
        intro c hc
        simp [hafter c hc]
      exact ⟨takeWhile_append_of_stop hinside hstop, dropWhile_append_of_stop hinside hstop⟩

/-- Nothing is read behind the opening if the block has no end. -/
theorem body?_eq_none_iff : style.body? s = none ↔ ¬style.EndsIn s := by
  cases style with
  | doc => simp [body?, EndsIn, cut?_eq_none_iff]
  | bang => simp [body?, EndsIn, cut?_eq_none_iff]
  | slashes => simp [body?, EndsIn]

/-- The block at the start of a text is what the style says. -/
theorem block?_eq_some_iff :
    style.block? s = some (block, after) ↔ s = block ++ after ∧ style.IsBlock block after := by
  constructor
  · intro h
    rw [block?] at h
    split at h
    · contradiction
    · next tail htail =>
      obtain ⟨⟨body, rest⟩, hbody, heq⟩ := Option.map_eq_some_iff.mp h
      obtain ⟨rfl, rfl⟩ := Prod.mk.inj heq
      obtain ⟨rfl, hisBody⟩ := body?_eq_some_iff.mp hbody
      exact ⟨by rw [stripPrefix?_eq_some_iff.mp htail, List.append_assoc], body, rfl, hisBody⟩
  · intro h
    obtain ⟨hs, body, rfl, hbody⟩ := h
    rw [List.append_assoc] at hs
    rw [block?, stripPrefix?_eq_some_iff.mpr hs]
    simp [body?_eq_some_iff.mpr ⟨rfl, hbody⟩]

/-- The opening of a block has three characters. -/
theorem length_opening (style : Style) : style.opening.length = 3 := by
  cases style <;> rfl

/-- There is no block at the start of a text if nothing opens there, or what opens has no end. -/
theorem block?_eq_none_iff :
    style.block? s = none ↔ (style.opening <+: s → ¬style.EndsIn (s.drop 3)) := by
  rw [block?]
  cases hstrip : stripPrefix? style.opening s with
  | none =>
    refine ⟨fun _ hbegin => ?_, fun _ => rfl⟩
    obtain ⟨tail, htail⟩ := hbegin
    rw [stripPrefix?_eq_some_iff.mpr htail.symm] at hstrip
    contradiction
  | some tail =>
    have hs := stripPrefix?_eq_some_iff.mp hstrip
    have hdrop : s.drop 3 = tail := by
      rw [hs, List.drop_append_of_le_length (length_opening style).ge, ← length_opening style]
      simp
    rw [Option.map_eq_none_iff, body?_eq_none_iff, hdrop]
    exact ⟨fun h _ => h, fun h => h ⟨tail, hs.symm⟩⟩

/-- A block holds its end, three characters behind the start of any text that it closes. -/
theorem IsBlock.endsIn_drop (h : style.IsBlock block after) (front : List Char) :
    style.EndsIn ((front ++ (block ++ after)).drop 3) := by
  obtain ⟨body, rfl, hbody⟩ := h
  have hdelimited {inside : List Char} (hinside : body = inside ++ ['*', '/']) :
      ['*', '/'] <:+: (front ++ (style.opening ++ body ++ after)).drop 3 := by
    have hlength : 3 ≤ (front ++ style.opening).length := by
      rw [List.length_append, length_opening]
      omega
    have hassoc : front ++ (style.opening ++ body ++ after) =
        (front ++ style.opening) ++ (body ++ after) := by
      simp only [List.append_assoc]
    rw [hassoc, List.drop_append_of_le_length hlength, hinside]
    exact ⟨(front ++ style.opening).drop 3 ++ inside, after, by simp only [List.append_assoc]⟩
  cases style with
  | doc => exact hdelimited hbody.choose_spec.1
  | bang => exact hdelimited hbody.choose_spec.1
  | slashes => trivial

/-- A block begins with its opening. -/
theorem IsBlock.opening_isPrefix (h : style.IsBlock block after) (rest : List Char) :
    style.opening <+: block ++ rest := by
  obtain ⟨body, rfl, _⟩ := h
  exact ⟨body ++ rest, by rw [List.append_assoc]⟩

/-- What opens in a last gap has no end, so no block is part of the gap. -/
theorem not_isBlock_of_gap {gap front : List Char}
    (hgap : ∀ rest, rest <:+ gap → style.opening <+: rest → ¬style.EndsIn (rest.drop 3))
    (heq : gap = front ++ (block ++ after)) : ¬style.IsBlock block after := by
  intro hblock
  have hsuffix : block ++ after <:+ gap := ⟨front, heq.symm⟩
  exact hgap _ hsuffix (hblock.opening_isPrefix after) (hblock.endsIn_drop [])

/-- A text is cut in one way only. -/
theorem CutsTo.unique {cutting other : Cutting} (h : CutsTo style s cutting)
    (hother : CutsTo style s other) : cutting = other := by
  induction h generalizing other with
  | @last gap hgap =>
    generalize hs : gap = s at hother
    cases hother with
    | last => rfl
    | block _ hblock _ => exact absurd hblock (not_isBlock_of_gap hgap hs)
  | @block gap block rest cutting hgap hblock _ ih =>
    generalize hs : gap ++ (block ++ rest) = s at hother
    cases hother with
    | last hgap' => exact absurd hblock (not_isBlock_of_gap hgap' hs.symm)
    | @block gap' block' rest' cutting' hgap' hblock' hrest' =>
      obtain rfl := eq_of_not_beginsIn hs hgap hgap' (hblock.opening_isPrefix rest)
        (hblock'.opening_isPrefix rest')
      -- Both texts behind the gap begin with the block that is read there.
      have hread := block?_eq_some_iff.mpr ⟨List.append_cancel_left hs, hblock'⟩
      have hread' := block?_eq_some_iff.mpr ⟨rfl, hblock⟩
      obtain ⟨rfl, rfl⟩ := Prod.mk.inj (Option.some.inj (hread.symm.trans hread'))
      rw [ih hrest']

/-- A character with no block at its place belongs to the gap before what follows. -/
theorem CutsTo.cons {c : Char} {cutting : Cutting} (hnone : style.block? (c :: s) = none)
    (h : CutsTo style s cutting) :
    ∃ longer : Cutting, CutsTo style (c :: s) longer ∧ longer.blocks = cutting.blocks := by
  cases h with
  | last hgap =>
    refine ⟨⟨[], c :: s⟩, .last fun rest hrest hopening => ?_, rfl⟩
    rcases List.suffix_cons_iff.mp hrest with rfl | hlater
    · exact block?_eq_none_iff.mp hnone hopening
    · exact hgap rest hlater hopening
  | @block gap block rest cutting hgap hblock hrest =>
    refine ⟨⟨(c :: gap, block) :: cutting.parts, cutting.last⟩, ?_, rfl⟩
    rw [← List.cons_append]
    refine CutsTo.block (fun hbegin => ?_) hblock hrest
    rcases beginsIn_cons_iff.mp hbegin with hopening | hlater
    · exact block?_eq_none_iff.mp hnone hopening (hblock.endsIn_drop (c :: gap))
    · exact hgap hlater

/-- Every text is cut into gaps and the blocks that the scanner gives. -/
theorem exists_cutsTo (style : Style) (s : List Char) :
    ∃ cutting, CutsTo style s cutting ∧ cutting.blocks = style.blocks s := by
  induction s using Style.blocks.induct style with
  | case1 =>
    refine ⟨⟨[], []⟩, .last fun rest hrest hopening => ?_, by rw [blocks]; rfl⟩
    have hlength := hopening.length_le
    rw [List.suffix_nil.mp hrest, length_opening] at hlength
    simp at hlength
  | case2 c rest block after hblock ih =>
    obtain ⟨heq, hisBlock⟩ := block?_eq_some_iff.mp hblock
    obtain ⟨cutting, hcuts, hblocks⟩ := ih
    refine ⟨⟨([], block) :: cutting.parts, cutting.last⟩, ?_, ?_⟩
    · rw [heq]
      exact CutsTo.block not_beginsIn_nil hisBlock hcuts
    · rw [blocks_of_block?_eq_some hblock, ← hblocks]
      rfl
  | case3 c rest hnone ih =>
    obtain ⟨cutting, hcuts, hblocks⟩ := ih
    obtain ⟨longer, hlonger, hsame⟩ := hcuts.cons hnone
    exact ⟨longer, hlonger, by rw [hsame, hblocks, blocks_of_block?_eq_none hnone]⟩

/-- The blocks of a cutting are blocks of the style. -/
theorem CutsTo.exists_isBlock {cutting : Cutting} (h : CutsTo style s cutting)
    (hblock : block ∈ cutting.blocks) : ∃ after, style.IsBlock block after := by
  induction h with
  | last => exact absurd hblock List.not_mem_nil
  | @block _ first rest _ _ hfirst _ ih =>
    rcases List.mem_cons.mp hblock with rfl | hlater
    · exact ⟨rest, hfirst⟩
    · exact ih hlater

/-- The blocks of a cutting stand in the text. -/
theorem CutsTo.isInfix {cutting : Cutting} (h : CutsTo style s cutting)
    (hblock : block ∈ cutting.blocks) : block <:+: s := by
  induction h with
  | last => exact absurd hblock List.not_mem_nil
  | @block gap first rest _ _ _ _ ih =>
    rcases List.mem_cons.mp hblock with rfl | hlater
    · exact ⟨gap, rest, List.append_assoc ..⟩
    · have hsuffix : rest <:+ gap ++ (first ++ rest) := ⟨gap ++ first, List.append_assoc ..⟩
      exact (ih hlater).trans hsuffix.isInfix

/-- What the scanner gives stands in the text. -/
theorem isInfix_of_mem_blocks (h : block ∈ style.blocks s) : block <:+: s := by
  obtain ⟨cutting, hcuts, hblocks⟩ := exists_cutsTo style s
  exact hcuts.isInfix (hblocks ▸ h)

/-- What the scanner gives are blocks of the style. -/
theorem exists_isBlock_of_mem_blocks (h : block ∈ style.blocks s) :
    ∃ after, style.IsBlock block after := by
  obtain ⟨cutting, hcuts, hblocks⟩ := exists_cutsTo style s
  exact hcuts.exists_isBlock (hblocks ▸ h)

end

end Style

/-- A source text gives one comment per block of the only way to cut it into gaps and blocks, in
their order, and each comment says what its block says. -/
theorem extract_cutting (supply : ℕ → String) (style : Style) (source : SourceFile) :
    ∃ cutting : Style.Cutting,
      (∀ other, style.CutsTo source.content.toList other ↔ other = cutting) ∧
      extract supply style [source] = cutting.blocks.mapIdx fun index block =>
        { id := supply index
          fileName := (Path.ofString source.path).name
          filePath := source.path
          tags := (ParsedComment.ofString (String.ofList block)).tags
          created := source.created
          modified := source.modified
          text := (ParsedComment.ofString (String.ofList block)).text } := by
  obtain ⟨cutting, hcuts, hblocks⟩ := style.exists_cutsTo source.content.toList
  refine ⟨cutting, fun other => ⟨fun hother => hother.unique hcuts, ?_⟩, ?_⟩
  · intro heq
    rwa [heq]
  · rw [extract, blocksOf, List.flatMap_singleton, hblocks]
    refine List.ext_getElem (by simp) fun index _ _ => ?_
    simp only [List.getElem_mapIdx, List.getElem_map, ofBlock, ParsedComment.ofString,
      String.toList_ofList]

end Comment

end DocAtlas
