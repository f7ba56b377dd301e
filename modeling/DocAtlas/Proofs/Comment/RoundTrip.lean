import DocAtlas.Comment.Basic
import DocAtlas.Proofs.Tag.Line
import DocAtlas.Proofs.Tag.Table
import DocAtlas.Proofs.Text.Pieces
import Mathlib.Data.List.Chain

/-!
# Written blocks are read back

A listing is code with comment blocks in it, each block written with one item per line. Reading a
listing gives one comment per block: code opens no block, a block ends where it was ended, its lines
are those that were written, and each line gives back its item.
-/

namespace DocAtlas.Text

/-- A text in which no block ends. -/
def Unclosed (s : List Char) : Prop :=
  s.IsChain fun a b => ¬(a = '*' ∧ b = '/')

/-- No block ends in a text without the delimiter. -/
theorem unclosed_of_no_delimiter {s : List Char} (h : ¬['*', '/'] <:+: s) : Unclosed s := by
  induction s with
  | nil => exact List.isChain_nil
  | cons a rest ih =>
    have hrest := ih fun hpart => h (hpart.trans (List.suffix_cons a rest).isInfix)
    cases rest with
    | nil => exact List.isChain_singleton a
    | cons b rest =>
      refine List.isChain_cons_cons.mpr ⟨?_, hrest⟩
      intro hdelimiter
      obtain ⟨rfl, rfl⟩ := hdelimiter
      exact h ⟨[], rest, rfl⟩

/-- No block ends where a character other than the star is put before a text. -/
theorem Unclosed.cons {c : Char} (hc : c ≠ '*') {s : List Char} (hs : Unclosed s) :
    Unclosed (c :: s) := by
  refine List.isChain_cons.mpr ⟨?_, hs⟩
  intro d _ hdelimiter
  exact hc hdelimiter.1

/-- No block ends where two texts meet and the second does not begin with a slash. -/
theorem Unclosed.append_cons {s t : List Char} {c : Char} (hs : Unclosed s) (hc : c ≠ '/')
    (ht : Unclosed (c :: t)) : Unclosed (s ++ c :: t) := by
  refine List.IsChain.append hs ht ?_
  intro a _ b hb hdelimiter
  obtain rfl : c = b := Option.some.inj hb
  exact hc hdelimiter.2

/-- A text in which no block ends is cut at the delimiter behind it. -/
theorem cut?_delimiter {s : List Char} (h : Unclosed (s ++ ['*'])) (rest : List Char) :
    cut? ['*', '/'] (s ++ '*' :: '/' :: rest) = some (s, rest) := by
  induction s with
  | nil => simp [cut?, stripPrefix?]
  | cons c s ih =>
    rw [List.cons_append, Unclosed, List.isChain_cons] at h
    have hnone : stripPrefix? ['*', '/'] (c :: (s ++ '*' :: '/' :: rest)) = none := by
      cases hstrip : stripPrefix? ['*', '/'] (c :: (s ++ '*' :: '/' :: rest)) with
      | none => rfl
      | some tail =>
        obtain ⟨rfl, hnext⟩ := List.cons.inj (stripPrefix?_eq_some_iff.mp hstrip)
        refine absurd ⟨rfl, rfl⟩ (h.1 '/' ?_)
        cases s with
        | nil => simp at hnext
        | cons d s => simpa using (List.cons.inj hnext).1
    rw [List.cons_append, cut?, hnone, ih h.2]
    rfl

end DocAtlas.Text

namespace DocAtlas.Comment

open DocAtlas.Tag DocAtlas.Text

/-- A piece of a source text that opens no block. -/
structure Code where
  text : String
  unopened : ¬['/', '*', '*'] <:+: text.toList

/-- A source text: the code before the first block, then the items of each block with the code
behind it. -/
structure Listing where
  start : Code
  parts : List (List Item × Code)

/-- A block with one line per item. -/
def renderBlock (items : List Item) : String :=
  "\n".intercalate ("/**" :: items.map Item.line ++ [" */"])

/-- Blocks, each with the code behind it. -/
def renderParts : List (List Item × Code) → String
  | [] => ""
  | (items, code) :: rest => renderBlock items ++ code.text ++ renderParts rest

/-- The text of a listing. -/
def Listing.render (listing : Listing) : String :=
  listing.start.text ++ renderParts listing.parts

/-- A block is its delimiters and the lines of its items, put together with newlines. -/
theorem toList_renderBlock_eq_joinWith (items : List Item) :
    (renderBlock items).toList = joinWith ['\n']
      ("/**".toList :: items.map (fun item => item.line.toList) ++ [" */".toList]) := by
  have hnewline : "\n".toList = ['\n'] := rfl
  rw [renderBlock, String.toList_intercalate, hnewline, ← joinWith_eq_intercalate, List.map_append,
    List.map_cons, List.map_map, List.map_singleton]
  rfl

/-- The lines of a block are its delimiters and the lines of its items. -/
theorem lines_renderBlock (items : List Item) :
    lines (renderBlock items).toList =
      "/**".toList :: items.map (fun item => item.line.toList) ++ [" */".toList] := by
  have hpieces : ∀ piece ∈ "/**".toList :: items.map (fun item => item.line.toList) ++
      [" */".toList], ∀ c ∈ piece, (c == '\n') = false := by
    intro piece hpiece c hc
    rw [beq_eq_false_iff_ne]
    intro hnewline
    subst hnewline
    simp only [List.cons_append, List.mem_cons, List.mem_append, List.mem_map, List.not_mem_nil,
      or_false] at hpiece
    obtain rfl | ⟨item, _, rfl⟩ | rfl := hpiece
    · exact absurd hc (by decide)
    · exact item.newline_notMem_line hc
    · exact absurd hc (by decide)
  rw [toList_renderBlock_eq_joinWith, lines]
  exact splitWhere_joinWith (by decide) (by simp) hpieces

/-- A block says what its items say. -/
theorem ofChars_renderBlock (items : List Item) :
    ParsedComment.ofChars (renderBlock items).toList =
      { tags := Table.grouped (items.filterMap Item.occurrence?)
        text := "\n".intercalate (items.filterMap Item.text?) } := by
  have hopening : Line.ofChars "/**".toList = .bare := by rfl
  have hclosing : Line.ofChars " */".toList = .bare := by rfl
  have hoccurrences : (items.map fun item => Line.ofChars item.line.toList).filterMap
      Line.occurrence? = items.filterMap Item.occurrence? := by
    rw [List.filterMap_map]
    exact List.filterMap_congr fun item _ => item.occurrence?_ofChars_line
  have htexts : (items.map fun item => Line.ofChars item.line.toList).filterMap Line.text? =
      (items.filterMap Item.text?).map String.toList := by
    rw [List.filterMap_map, List.map_filterMap]
    exact List.filterMap_congr fun item _ => item.text?_ofChars_line
  have htrim : trim (joinWith ['\n'] ((items.filterMap Item.text?).map String.toList)) =
      joinWith ['\n'] ((items.filterMap Item.text?).map String.toList) := by
    refine trim_joinWith _ fun piece hpiece => ?_
    obtain ⟨content, hcontent, rfl⟩ := List.mem_map.mp hpiece
    obtain ⟨item, _, hitem⟩ := List.mem_filterMap.mp hcontent
    exact item.trim_of_text? hitem
  have htext : String.ofList (joinWith ['\n'] ((items.filterMap Item.text?).map String.toList)) =
      "\n".intercalate (items.filterMap Item.text?) := by
    rw [← String.toList_inj, String.toList_ofList, String.toList_intercalate,
      joinWith_eq_intercalate]
    rfl
  have hlines : (lines (renderBlock items).toList).map Line.ofChars =
      .bare :: (items.map fun item => Line.ofChars item.line.toList) ++ [.bare] := by
    rw [lines_renderBlock, List.map_append, List.map_cons, List.map_map, List.map_singleton,
      hopening, hclosing]
    rfl
  have hbare {α : Type} (f : Line → Option α) (hf : f .bare = none) (found : List Line) :
      (Line.bare :: found ++ [Line.bare]).filterMap f = found.filterMap f := by
    simp [hf]
  rw [ParsedComment.ofChars, hlines, ParsedComment.ofLines, hbare _ rfl, hbare _ rfl, hoccurrences,
    htexts, htrim, Table.ofOccurrences_eq_grouped, htext]

/-- The characters of a block between its delimiters. -/
def inside (items : List Item) : List Char :=
  items.flatMap (fun item => '\n' :: item.line.toList) ++ ['\n', ' ']

/-- A block is its delimiters with the characters between them. -/
theorem toList_renderBlock (items : List Item) :
    (renderBlock items).toList = ['/', '*', '*'] ++ inside items ++ ['*', '/'] := by
  rw [toList_renderBlock_eq_joinWith, joinWith_cons_append, List.flatMap_map, inside]
  simp

/-- A block does not end in the line of an item. -/
theorem unclosed_line_append (item : Item) {rest : List Char} (hrest : Unclosed ('\n' :: rest)) :
    Unclosed (item.line.toList ++ '\n' :: rest) := by
  have hphrase (phrase : Phrase) : Unclosed (phrase.text.toList ++ '\n' :: rest) :=
    (unclosed_of_no_delimiter phrase.unclosed).append_cons (by decide) hrest
  have hstar {s : List Char} (hs : Unclosed s) : Unclosed ([' ', '*'] ++ ' ' :: s) := by
    have hlead : Unclosed [' ', '*'] := unclosed_of_no_delimiter (by decide)
    exact hlead.append_cons (by decide) (hs.cons (by decide))
  cases item with
  | tag name value =>
    have hname : Unclosed ('@' :: name.text.toList) := by
      refine (unclosed_of_no_delimiter fun hpart => ?_).cons (by decide)
      exact name.notMem (c := '*') (by decide) (hpart.subset List.mem_cons_self)
    have hvalue := (hphrase value).cons (c := ' ') (by decide)
    have hcontent := hstar (hname.append_cons (by decide) hvalue)
    simpa [Item.toList_line_tag] using hcontent
  | text content start free =>
    simpa [Item.line, Item.content] using hstar (hphrase content)

/-- A block does not end before its last line. -/
theorem unclosed_inside (items : List Item) : Unclosed (inside items ++ ['*']) := by
  induction items with
  | nil => exact unclosed_of_no_delimiter (by decide)
  | cons item rest ih =>
    have hinside : ∃ s, inside rest ++ ['*'] = '\n' :: s := by
      cases rest <;> simp [inside]
    obtain ⟨s, hs⟩ := hinside
    rw [hs] at ih
    have hline := (unclosed_line_append item ih).cons (c := '\n') (by decide)
    rw [← hs] at hline
    simpa [inside] using hline

/-- A block at the start of a text is read to its end. -/
theorem block?_renderBlock (items : List Item) (rest : List Char) :
    Style.doc.block? ((renderBlock items).toList ++ rest) =
      some ((renderBlock items).toList, rest) := by
  have hopen : stripPrefix? Style.doc.opening ((renderBlock items).toList ++ rest) =
      some (inside items ++ '*' :: '/' :: rest) := by
    rw [stripPrefix?_eq_some_iff, toList_renderBlock]
    simp [Style.opening]
  rw [Style.block?, hopen, toList_renderBlock]
  simp [Style.body?, cut?_delimiter (unclosed_inside items), Style.opening]

/-- A block at the start of a text is the first one. -/
theorem blocks_renderBlock_append (items : List Item) (rest : List Char) :
    Style.doc.blocks ((renderBlock items).toList ++ rest) =
      (renderBlock items).toList :: Style.doc.blocks rest := by
  have hblock := block?_renderBlock items rest
  have hcons : (renderBlock items).toList ++ rest =
      '/' :: ('*' :: '*' :: inside items ++ ['*', '/'] ++ rest) := by
    rw [toList_renderBlock]
    rfl
  rw [hcons] at hblock ⊢
  exact Style.blocks_of_block?_eq_some hblock

/-- No block opens in code, not even if it goes on with something other than a star. -/
theorem opening_append_ne {c : Char} {code s : List Char} (hcode : ¬['/', '*', '*'] <:+: c :: code)
    (hs : s.head? ≠ some '*') (tail : List Char) :
    c :: (code ++ s) ≠ Style.doc.opening ++ tail := by
  intro heq
  match code with
  | [] => simp_all [Style.opening]
  | [d] => simp_all [Style.opening]
  | d :: e :: rest =>
    obtain ⟨rfl, rfl, rfl, _⟩ : c = '/' ∧ d = '*' ∧ e = '*' ∧ rest ++ s = tail := by
      simpa [Style.opening] using heq
    exact hcode ⟨[], rest, rfl⟩

/-- Code before a block, or at the end of a text, is passed over. -/
theorem blocks_append {code : List Char} (hcode : ¬['/', '*', '*'] <:+: code) {s : List Char}
    (hs : s.head? ≠ some '*') : Style.doc.blocks (code ++ s) = Style.doc.blocks s := by
  induction code with
  | nil => rfl
  | cons c code ih =>
    have hrest := ih fun hpart => hcode (hpart.trans (List.suffix_cons c code).isInfix)
    have hnone : Style.doc.block? (c :: (code ++ s)) = none := by
      rw [Style.block?]
      split
      · rfl
      · next tail htail =>
        exact absurd (stripPrefix?_eq_some_iff.mp htail) (opening_append_ne hcode hs tail)
    rw [List.cons_append, Style.blocks_of_block?_eq_none hnone, hrest]

/-- The blocks of a listing are those that were written. -/
theorem blocks_render (listing : Listing) :
    Style.doc.blocks listing.render.toList =
      listing.parts.map fun (items, _) => (renderBlock items).toList := by
  obtain ⟨start, parts⟩ := listing
  induction parts generalizing start with
  | nil =>
    have hempty := blocks_append start.unopened (s := []) (by simp)
    simpa [Listing.render, renderParts, Style.blocks] using hempty
  | cons part rest ih =>
    obtain ⟨items, code⟩ := part
    have hhead : ((renderBlock items).toList ++ (code.text ++ renderParts rest).toList).head? ≠
        some '*' := by
      simp [toList_renderBlock]
    have hskip := blocks_append start.unopened hhead
    have hrender : (Listing.render ⟨start, (items, code) :: rest⟩).toList = start.text.toList ++
        ((renderBlock items).toList ++ (code.text ++ renderParts rest).toList) := by
      simp [Listing.render, renderParts]
    rw [hrender, hskip, blocks_renderBlock_append, List.map_cons]
    exact congrArg (List.cons _) (ih code)

/-- Reading undoes writing: a listing gives one comment per block, in their order. The tags of a
comment are grouped by name, the names in order of first appearance, and its text holds the pieces
of free text, one per line. -/
theorem extract_render (supply : ℕ → String) (path created modified : String)
    (listing : Listing) :
    extract supply .doc [{ path, content := listing.render, created, modified }] =
      listing.parts.mapIdx fun index (items, _) =>
        { id := supply index
          fileName := (Path.ofString path).name
          filePath := path
          tags := Table.grouped (items.filterMap Item.occurrence?)
          created
          modified
          text := "\n".intercalate (items.filterMap Item.text?) } := by
  rw [extract, blocksOf, List.flatMap_singleton, blocks_render, List.map_map]
  refine List.ext_getElem (by simp) fun index _ _ => ?_
  simp only [List.getElem_mapIdx, List.getElem_map, Function.comp_apply, ofBlock,
    ofChars_renderBlock]

/-- A text without `@` as an item. -/
def plain (content : Phrase) (h : '@' ∉ content.text.toList) : Item :=
  .text content (fun hhead => h (List.mem_of_head? hhead)) fun hholds => by
    obtain ⟨_, _, _, _, _, hpart⟩ := hholds
    exact h (hpart.subset List.mem_cons_self)

/-- Two blocks between pieces of code that nearly open or end a block. -/
def greeting : Listing :=
  { start := ⟨"let half = a /", by decide⟩
    parts :=
      [([.tag ⟨"param", by decide, by decide⟩
            ⟨"\x7b*\x7d name - @see the * / rest", by decide, by decide, by decide, by decide⟩,
          plain ⟨"Greets * someone /", by decide, by decide, by decide, by decide⟩ (by decide),
          .tag ⟨"see", by decide, by decide⟩ ⟨"/", by decide, by decide, by decide, by decide⟩,
          .tag ⟨"param", by decide, by decide⟩ ⟨"*", by decide, by decide, by decide, by decide⟩],
        ⟨"** greet */ /*", by decide⟩),
      ([], ⟨"", by decide⟩)] }

/-- The two blocks of the greeting are read back. -/
theorem extract_render_greeting :
    extract Nat.repr .doc
        [{ path := "lib/greet.js", content := greeting.render, created := "", modified := "" }] =
      [{ id := "0"
         fileName := "greet.js"
         filePath := "lib/greet.js"
         tags :=
          [("param",
            [{ line := "* @param \x7b*\x7d name - @see the * / rest"
               name := "param"
               description := "\x7b*\x7d name - @see the * / rest" },
             { line := "* @param *", name := "param", description := "*" }]),
           ("see", [{ line := "* @see /", name := "see", description := "/" }])]
         created := ""
         modified := ""
         text := "Greets * someone /" },
       { id := "1"
         fileName := "greet.js"
         filePath := "lib/greet.js"
         tags := []
         created := ""
         modified := ""
         text := "" }] :=
  (extract_render Nat.repr "lib/greet.js" "" "" greeting).trans rfl

end DocAtlas.Comment
