import DocAtlas.Atlas.Link
import DocAtlas.Identity
import DocAtlas.Proofs.Page.Chapters

/-!
# Rows of a chapter's table

A row of the table of a chapter has three cells if it has four bars that no backslash precedes.
Summaries are written so that none of their bars is such a bar. Titles and kinds are written as
they are, the title a second time in the anchor of its link, so each open bar in them adds to the
row. An anchor has no more open bars than its title: lowercasing keeps bars and backslashes and
makes no new bars, and dots that are left out stand for nothing that opens a bar.
-/

namespace DocAtlas.Page

open DocAtlas.Text

/-- The bars of a text that no backslash precedes, where the flag tells whether a backslash stands
before the text. -/
def openBarsAfter (escaped : Bool) : List Char → Nat
  | [] => 0
  | c :: rest => (if c = '|' ∧ escaped = false then 1 else 0) + openBarsAfter (c = '\\') rest

/-- The bars of a line that no backslash precedes. -/
def openBars (s : String) : Nat :=
  openBarsAfter false s.toList

/-! ## Around a character that is neither a bar nor a backslash -/

/-- A character that is neither a bar nor a backslash ends an escape and adds no bar. -/
theorem openBarsAfter_cons {c : Char} (hbar : c ≠ '|') (hslash : c ≠ '\\') (escaped : Bool)
    (rest : List Char) : openBarsAfter escaped (c :: rest) = openBarsAfter false rest := by
  rw [openBarsAfter, if_neg (hbar ·.1), Nat.zero_add, decide_eq_false hslash]

/-- The open bars before and after such a character are counted apart. -/
theorem openBarsAfter_append_cons {c : Char} (hbar : c ≠ '|') (hslash : c ≠ '\\')
    (escaped : Bool) (s rest : List Char) :
    openBarsAfter escaped (s ++ c :: rest) =
      openBarsAfter escaped s + openBarsAfter false rest := by
  induction s generalizing escaped with
  | nil => rw [List.nil_append, openBarsAfter_cons hbar hslash, openBarsAfter, Nat.zero_add]
  | cons d s ih => rw [List.cons_append, openBarsAfter, ih, openBarsAfter, Nat.add_assoc]

/-! ## Cells -/

/-- In a cell a backslash stands before every bar. -/
theorem openBars_cell (s : String) : openBars (cell s) = 0 := by
  have hcell (escaped : Bool) (s : List Char) :
      openBarsAfter escaped (s.flatMap fun c => if c = '|' then ['\\', '|'] else [c]) = 0 := by
    induction s generalizing escaped with
    | nil => rfl
    | cons c s ih =>
      rw [List.flatMap_cons]
      by_cases hbar : c = '|'
      · simp [hbar, openBarsAfter, ih]
      · simp [hbar, openBarsAfter, ih]
  rw [openBars, cell, String.toList_ofList]
  exact hcell false s.toList

/-- A row has the four bars around its cells and the open bars of the title, of its anchor and of
the kind. -/
theorem openBars_memberRow (member : Entry) :
    openBars (memberRow member) =
      4 + openBars member.title + openBars (anchor member.title) +
        openBars (member.kind.getD "") := by
  have hrow : (memberRow member).toList =
      "| [`".toList ++ (member.title.toList ++ '`' :: ("](#".toList ++
        ((anchor member.title).toList ++ ')' :: (" | ".toList ++
          ((member.kind.getD "").toList ++ ' ' :: ("| ".toList ++
            ((cell (member.summary.getD "")).toList ++ ' ' :: "|".toList))))))) := by
    simp [memberRow]
  have hsummary : openBarsAfter false (cell (member.summary.getD "")).toList = 0 :=
    openBars_cell (member.summary.getD "")
  simp only [openBars, hrow, String.reduceToList, List.cons_append, List.nil_append,
    openBarsAfter, openBarsAfter_append_cons, hsummary, and_self, and_true, ne_eq, Char.reduceEq,
    not_false_eq_true, decide_false, ↓reduceIte, Nat.add_zero, Nat.zero_add, Nat.reduceAdd]
  omega

/-! ## Anchors -/

/-- The lower case of a code point is the code point itself or that of a run it lies in. -/
theorem lowerCodePoint_cases (n : Nat) (runs : List (Nat × Nat × Nat × Int)) :
    lowerCodePoint n runs = n ∨
      ∃ run ∈ runs, run.1 ≤ n ∧ n ≤ run.2.1 ∧ lowerCodePoint n runs = (n + run.2.2.2).toNat := by
  induction runs with
  | nil => exact .inl rfl
  | cons run rest ih =>
    obtain ⟨first, last, step, distance⟩ := run
    rw [lowerCodePoint]
    split
    case isTrue => exact .inl rfl
    case isFalse hfirst =>
      split
      case isTrue hrun =>
        simp only [Bool.and_eq_true, decide_eq_true_eq] at hrun
        exact .inr ⟨_, List.mem_cons_self, Nat.le_of_not_lt hfirst, hrun.1, rfl⟩
      case isFalse =>
        obtain heq | ⟨run, hrun, hbounds⟩ := ih
        · exact .inl heq
        · exact .inr ⟨run, List.mem_cons_of_mem _ hrun, hbounds⟩

/-- Only a bar has a bar as its lower case. -/
theorem eq_bar_of_lowerCodePoint {n : Nat} (h : lowerCodePoint n lowercaseRuns = '|'.toNat) :
    n = '|'.toNat := by
  have hruns : ∀ run ∈ lowercaseRuns,
      (124 : Int) < run.1 + run.2.2.2 ∨ run.2.1 + run.2.2.2 < (124 : Int) := by decide +kernel
  have hbar : '|'.toNat = 124 := rfl
  obtain heq | ⟨run, hrun, hfirst, hlast, heq⟩ := lowerCodePoint_cases n lowercaseRuns
  · rw [← heq, h]
  · have hdistance := hruns run hrun
    rw [h, hbar] at heq
    omega

/-- The code point of a bar is the only one. -/
theorem eq_bar_of_ofNat {n : Nat} (h : Char.ofNat n = '|') : n = '|'.toNat := by
  by_cases hvalid : n.isValidChar
  · rw [← h, Char.ofNat, dif_pos hvalid]
    rfl
  · rw [Char.ofNat, dif_neg hvalid] at h
    exact absurd h (by decide)

/-- The lower case of another character holds no bar. -/
theorem bar_notMem_lowerChar {c : Char} (h : c ≠ '|') (before after : List Char) :
    '|' ∉ lowerChar before c after := by
  rw [lowerChar]
  split
  · decide
  · split
    · split <;> decide
    · intro hbar
      have hlower := eq_bar_of_ofNat (List.mem_singleton.mp hbar).symm
      exact h (Char.toNat_inj.mp (eq_bar_of_lowerCodePoint hlower))

/-- How an anchor writes the characters of a lower-case title. -/
def anchorChars (s : List Char) : List Char :=
  (s.filter (· != '.')).map fun c => if c = ' ' then '-' else c

/-- Characters are written one after the other. -/
theorem anchorChars_append (s t : List Char) :
    anchorChars (s ++ t) = anchorChars s ++ anchorChars t := by
  rw [anchorChars, List.filter_append, List.map_append, anchorChars, anchorChars]

/-- No bar is written where there was none. -/
theorem bar_notMem_anchorChars {s : List Char} (h : '|' ∉ s) : '|' ∉ anchorChars s := by
  intro hbar
  obtain ⟨c, hc, heq⟩ := List.mem_map.mp hbar
  split at heq
  · exact absurd heq (by decide)
  · exact h (heq ▸ (List.mem_filter.mp hc).1)

/-- Characters without bars have no open bar, whatever comes before them. -/
theorem openBarsAfter_append_of_notMem {s : List Char} (h : '|' ∉ s) (escaped : Bool)
    (rest : List Char) :
    ∃ escaped', openBarsAfter escaped (s ++ rest) = openBarsAfter escaped' rest := by
  induction s generalizing escaped with
  | nil => exact ⟨escaped, rfl⟩
  | cons c s ih =>
    rw [List.mem_cons, not_or] at h
    obtain ⟨escaped', heq⟩ := ih h.2 (c = '\\')
    refine ⟨escaped', ?_⟩
    rw [List.cons_append, openBarsAfter, if_neg (fun hbar => h.1 hbar.1.symm), Nat.zero_add, heq]

/-- The anchor of what follows has no more open bars than the text itself, if it follows a backslash
where the text does. -/
theorem openBarsAfter_anchorChars_le (s before : List Char) {escaped escapedAnchor : Bool}
    (h : escaped = true → escapedAnchor = true) :
    openBarsAfter escapedAnchor (anchorChars (lowerFrom before s)) ≤ openBarsAfter escaped s := by
  -- A dot is left out, so the anchor may go on behind a backslash where the text does not. That it
  -- never goes the other way round is what the induction keeps.
  induction s generalizing before escaped escapedAnchor with
  | nil => exact Nat.le_refl 0
  | cons c s ih =>
    rw [lowerFrom, anchorChars_append, openBarsAfter]
    by_cases hbar : c = '|'
    · subst hbar
      have hwritten : anchorChars (lowerChar before '|' s) = ['|'] := rfl
      have hrest : openBarsAfter false (anchorChars (lowerFrom ('|' :: before) s)) ≤
          openBarsAfter false s := ih ('|' :: before) id
      have hopen : (if '|' = '|' ∧ escapedAnchor = false then 1 else 0) ≤
          if '|' = '|' ∧ escaped = false then 1 else 0 := by
        cases escaped <;> cases escapedAnchor <;> simp_all
      rw [hwritten, List.singleton_append, openBarsAfter]
      exact Nat.add_le_add hopen hrest
    · by_cases hslash : c = '\\'
      · subst hslash
        have hwritten : anchorChars (lowerChar before '\\' s) = ['\\'] := rfl
        rw [hwritten, List.singleton_append, openBarsAfter, if_neg (hbar ·.1), if_neg (hbar ·.1)]
        exact Nat.add_le_add_left (ih ('\\' :: before) id) 0
      · obtain ⟨escaped', heq⟩ := openBarsAfter_append_of_notMem
          (bar_notMem_anchorChars (bar_notMem_lowerChar hbar before s)) escapedAnchor
          (anchorChars (lowerFrom (c :: before) s))
        rw [heq, if_neg (hbar ·.1), Nat.zero_add]
        exact ih (c :: before) (fun h => absurd (of_decide_eq_true h) hslash)

/-- The anchor of a title has no more open bars than the title. -/
theorem openBars_anchor_le (title : String) : openBars (anchor title) ≤ openBars title := by
  rw [openBars, anchor, String.toList_ofList]
  exact openBarsAfter_anchorChars_le title.toList [] id

/-! ## Tables -/

/-- A row has exactly four open bars if its title and its kind have none. -/
theorem openBars_memberRow_eq_four_iff (member : Entry) :
    openBars (memberRow member) = 4 ↔
      openBars member.title = 0 ∧ openBars (member.kind.getD "") = 0 := by
  have hrow := openBars_memberRow member
  have hanchor := openBars_anchor_le member.title
  omega

/-- The table of a heading is written in its chapter. -/
theorem memberTable_isInfix {atlas : Atlas} {heading : Entry} (h : heading ∈ atlas.headings)
    (title : String) : memberTable (membersOf atlas heading) <:+: markdownLines atlas title := by
  have hheadings : (chapters atlas [] atlas.headings).map Chapter.heading = atlas.headings :=
    map_heading_chapters [] atlas.headings
  rw [← hheadings] at h
  obtain ⟨chapter, hchapter, rfl⟩ := List.mem_map.mp h
  have htable : memberTable (membersOf atlas chapter.heading) <:+: chapterLines atlas chapter :=
    ⟨paragraph ("## " ++ chapter.heading.group) ++ textParagraph chapter.heading.summary,
      chapter.entries.flatMap section_, rfl⟩
  have hlines : chapterLines atlas chapter <:+:
      (chapters atlas [] atlas.headings).flatMap (chapterLines atlas) := by
    rw [List.flatMap_def]
    exact List.infix_of_mem_flatten (List.mem_map_of_mem hchapter)
  have hpage : (chapters atlas [] atlas.headings).flatMap (chapterLines atlas) <:+:
      markdownLines atlas title := ⟨_, _, rfl⟩
  exact htable.trans (hlines.trans hpage)

/-- The table of a heading has a row for each member. -/
theorem memberRow_mem_memberTable {members : List Entry} {member : Entry} (h : member ∈ members) :
    memberRow member ∈ memberTable members := by
  have hrow : memberRow member ∈ members.map memberRow := List.mem_map_of_mem h
  have hmembers : ¬members.isEmpty = true := by
    rw [List.isEmpty_iff]
    exact List.ne_nil_of_mem h
  rw [memberTable, if_neg hmembers]
  exact List.mem_append_left _ (List.mem_append_right _ hrow)

/-- The table of a heading is on the page with a row for each member, and the row separates three
cells exactly if neither the title of the member nor its kind has an open bar; the summary adds
none. -/
theorem markdown_rows {atlas : Atlas} {heading : Entry} (h : heading ∈ atlas.headings)
    (title : String) :
    memberTable (membersOf atlas heading) <:+: markdownLines atlas title ∧
      ∀ member ∈ membersOf atlas heading,
        memberRow member ∈ memberTable (membersOf atlas heading) ∧
        openBars (memberRow member) =
          4 + openBars member.title + openBars (anchor member.title) +
            openBars (member.kind.getD "") ∧
        (openBars (memberRow member) = 4 ↔
          openBars member.title = 0 ∧ openBars (member.kind.getD "") = 0) := by
  refine ⟨memberTable_isInfix h title, fun member hmember => ?_⟩
  exact ⟨memberRow_mem_memberTable hmember, openBars_memberRow member,
    openBars_memberRow_eq_four_iff member⟩

/-- A module with a member whose type is a union. -/
def unionSources : List SourceFile :=
  [{ path := "p.ts", content := "/** @module P\n * @namespace \x7bLib\x7d\n * @summary Lib. */"
     created := "", modified := "" },
   { path := "x.ts"
     content := "/** @memberof module:P\n * @type \x7bstring|number\x7d x\n * @summary A value. */"
     created := "", modified := "" }]

/-- The atlas of the module and its member. -/
def unionAtlas : Atlas :=
  .link (Comment.extract (Identity.supply 0).comment .doc unionSources)

/-- The module heads the only table, which has one row. -/
theorem map_memberRow_unionAtlas :
    unionAtlas.headings.map (fun heading => (membersOf unionAtlas heading).map memberRow) =
      [["| [`x`](#x) | string|number | A value. |"]] := by
  decide +kernel

/-- The table of the module. -/
theorem markdown_rows_module : ∃ heading ∈ unionAtlas.headings,
    memberTable (membersOf unionAtlas heading) <:+: markdownLines unionAtlas "Documentation" ∧
      ∀ member ∈ membersOf unionAtlas heading,
        memberRow member ∈ memberTable (membersOf unionAtlas heading) ∧
        openBars (memberRow member) =
          4 + openBars member.title + openBars (anchor member.title) +
            openBars (member.kind.getD "") ∧
        (openBars (memberRow member) = 4 ↔
          openBars member.title = 0 ∧ openBars (member.kind.getD "") = 0) := by
  obtain ⟨heading, hheadings, -⟩ := List.map_eq_singleton_iff.mp map_memberRow_unionAtlas
  have hheading : heading ∈ unionAtlas.headings := hheadings ▸ List.mem_singleton_self heading
  exact ⟨heading, hheading, markdown_rows hheading "Documentation"⟩

/-- A union type is no single cell: the row of the member has five open bars. -/
theorem memberRow_union : ∃ heading ∈ unionAtlas.headings,
    ∃ member ∈ membersOf unionAtlas heading,
      memberRow member = "| [`x`](#x) | string|number | A value. |" ∧
      memberRow member ∈ markdownLines unionAtlas "Documentation" ∧
      openBars (memberRow member) = 5 := by
  obtain ⟨heading, hheadings, hrows⟩ := List.map_eq_singleton_iff.mp map_memberRow_unionAtlas
  obtain ⟨member, hmembers, hrow⟩ := List.map_eq_singleton_iff.mp hrows
  have hheading : heading ∈ unionAtlas.headings := hheadings ▸ List.mem_singleton_self heading
  have hmember : member ∈ membersOf unionAtlas heading := hmembers ▸ List.mem_singleton_self member
  have hline : memberRow member ∈ markdownLines unionAtlas "Documentation" :=
    (memberTable_isInfix hheading "Documentation").subset (memberRow_mem_memberTable hmember)
  exact ⟨heading, hheading, member, hmember, hrow, hline, by rw [hrow]; decide⟩

end DocAtlas.Page
