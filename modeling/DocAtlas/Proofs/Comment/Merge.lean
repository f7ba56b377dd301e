import DocAtlas.Proofs.Comment.Grammar

/-!
# Comments that go on

A comment can be cut at any of its newlines, and what it says is put together from what its two
parts say. The lines of the whole are those of the parts, so its tags are grouped from the tags of
both, and its text is made of the pieces of both. No trimming comes between: the pieces of a text
neither begin nor end with a blank, so the ends of the joined pieces are those of a piece.
-/

namespace DocAtlas

open DocAtlas.Tag DocAtlas.Text

namespace Tag.Table

/-- The table of what is said in two parts: the names of the first part, each with its occurrences
in both, then the names that only the second part has. -/
def merge (first second : Table) : Table :=
  first.map (fun entry => (entry.1, entry.2 ++ second.occurrences entry.1)) ++
    second.filter fun entry => entry.1 ∉ first.map Prod.fst

/-- The names of more occurrences are those that are there, then the new ones. -/
theorem names_append (first second : List Occurrence) :
    ((first ++ second).map Occurrence.name).eraseDups =
      (first.map Occurrence.name).eraseDups ++
        (second.map Occurrence.name).eraseDups.filter
          fun name => name ∉ (first.map Occurrence.name).eraseDups := by
  have hnew : (second.map Occurrence.name).removeAll (first.map Occurrence.name) =
      (second.map Occurrence.name).filter
        fun name => name ∉ (first.map Occurrence.name).eraseDups := by
    refine List.filter_congr fun name _ => ?_
    rw [List.elem_eq_mem, ← decide_not, decide_eq_decide, List.mem_eraseDups]
  rw [List.map_append, List.eraseDups_append, hnew, eraseDups_filter]

/-- Grouping two sequences of occurrences together merges their tables. -/
theorem grouped_append (first second : List Occurrence) :
    grouped (first ++ second) = (grouped first).merge (grouped second) := by
  have hknown : (grouped first).map (fun entry =>
      (entry.1, entry.2 ++ (grouped second).occurrences entry.1)) =
        (first.map Occurrence.name).eraseDups.map fun name =>
          (name, (first ++ second).filter (·.name = name)) := by
    simp only [occurrences_grouped]
    rw [grouped, List.map_map]
    refine List.map_congr_left fun name _ => ?_
    rw [List.filter_append, Function.comp_apply]
  have hnew : (grouped second).filter (fun entry => entry.1 ∉ (grouped first).map Prod.fst) =
      ((second.map Occurrence.name).eraseDups.filter
        fun name => name ∉ (first.map Occurrence.name).eraseDups).map fun name =>
          (name, (first ++ second).filter (·.name = name)) := by
    rw [map_fst_grouped, grouped, List.filter_map]
    refine List.map_congr_left fun name hname => ?_
    have hother : name ∉ first.map Occurrence.name := by
      simpa using (List.mem_filter.mp hname).2
    rw [List.filter_append, filter_name_eq_nil hother, List.nil_append]
  rw [merge, hknown, hnew, ← List.map_append, ← names_append]
  rfl

end Tag.Table

namespace ParsedComment

/-- What is said in two parts, the second one on the lines behind the first. -/
def merge (first second : ParsedComment) : ParsedComment :=
  { tags := first.tags.merge second.tags
    text := "\n".intercalate ([first.text, second.text].filter (· ≠ ""))
    ok := first.ok && second.ok }

/-- What the lines of a block carry. -/
def carried (block : List Char) : List Line :=
  (lines block).map Line.ofChars

/-- A block says what its lines carry. -/
theorem ofChars_eq_ofLines (block : List Char) : ofChars block = ofLines (carried block) :=
  rfl

/-- The lines of two blocks with a newline between them are the lines of both. -/
theorem carried_append_newline (first second : List Char) :
    carried (first ++ '\n' :: second) = carried first ++ carried second := by
  rw [carried, lines, splitWhere_append_cons (by decide), List.map_append]
  rfl

/-- The text that a line carries neither begins nor ends with a blank. -/
theorem solid_of_mem_carried {block content : List Char} (h : Line.text content ∈ carried block) :
    Solid content := by
  obtain ⟨line, _, hline⟩ := List.mem_map.mp h
  obtain ⟨body, _, hcarries⟩ := Line.reads_iff.mpr hline
  cases hcarries with
  | text htag hfirst hstart =>
    obtain ⟨lead, ⟨rest, _, hspaced⟩, _⟩ := hfirst
    obtain ⟨_, _, _, hsolid, _⟩ := hspaced
    exact hsolid

/-- The pieces of text that the lines of a block carry neither begin nor end with a blank. -/
theorem solid_of_mem_texts {block piece : List Char}
    (h : piece ∈ (carried block).filterMap Line.text?) : Solid piece := by
  obtain ⟨line, hline, htext⟩ := List.mem_filterMap.mp h
  cases line with
  | text content => exact solid_of_mem_carried (Option.some.inj htext ▸ hline)
  | tag o => contradiction
  | bare => contradiction

/-- The joined pieces of a text are not trimmed. -/
theorem trim_joinWith_of_solid (separator : List Char) {pieces : List (List Char)}
    (h : ∀ piece ∈ pieces, Solid piece) :
    trim (joinWith separator pieces) = joinWith separator pieces := by
  refine trim_joinWith separator fun piece hpiece => ?_
  have hsolid := h piece hpiece
  exact ⟨hsolid.nonempty, trim_eq_self hsolid.first hsolid.last⟩

/-- Joined pieces are not empty if there are any. -/
theorem joinWith_ne_nil_of_solid (separator : List Char) {pieces : List (List Char)}
    (hne : pieces ≠ []) (h : ∀ piece ∈ pieces, Solid piece) : joinWith separator pieces ≠ [] := by
  obtain ⟨⟨first, hfirst, after, hjoin⟩, _⟩ := exists_ends_of_joinWith separator hne
  rw [hjoin]
  exact fun hnil => (h first hfirst).nonempty (List.append_eq_nil_iff.mp hnil).1

/-- Pieces of two texts are joined to the two texts, or to the one that is not empty. -/
theorem joinWith_append_of_solid (separator : List Char) {pieces others : List (List Char)}
    (hpieces : ∀ piece ∈ pieces, Solid piece) (hothers : ∀ piece ∈ others, Solid piece) :
    joinWith separator (pieces ++ others) =
      joinWith separator
        ([joinWith separator pieces, joinWith separator others].filter (· ≠ [])) := by
  have hsingle (s : List Char) : joinWith separator ([s].filter (· ≠ [])) = s := by
    by_cases hs : s = []
    · simp [hs, joinWith]
    · simp [hs, joinWith]
  by_cases hfirst : pieces = []
  · subst hfirst
    exact (hsingle _).symm
  by_cases hsecond : others = []
  · subst hsecond
    rw [List.append_nil]
    have hdrop : [joinWith separator pieces, joinWith separator []].filter (· ≠ []) =
        [joinWith separator pieces].filter (· ≠ []) := by
      simp [joinWith, List.filter_cons]
    rw [hdrop, hsingle]
  · have hfirst' := joinWith_ne_nil_of_solid separator hfirst hpieces
    have hsecond' := joinWith_ne_nil_of_solid separator hsecond hothers
    rw [joinWith_append separator hfirst hsecond]
    simp [hfirst', hsecond', joinWith]

/-- The characters of texts that are put together with newlines, those left out that are empty. -/
theorem toList_intercalate_filter (texts : List String) :
    ("\n".intercalate (texts.filter (· ≠ ""))).toList =
      joinWith ['\n'] ((texts.map String.toList).filter (· ≠ [])) := by
  have hfilter : (texts.filter (· ≠ "")).map String.toList =
      (texts.map String.toList).filter (· ≠ []) := by
    rw [List.filter_map]
    refine congrArg (List.map String.toList) (List.filter_congr fun text _ => ?_)
    rw [Function.comp_apply, decide_eq_decide, not_iff_not, String.toList_eq_nil_iff]
  rw [String.toList_intercalate, hfilter, joinWith_eq_intercalate]
  rfl

/-- What is said on the lines of two parts is merged from what is said on the lines of each. -/
theorem ofLines_append (first second : List Char) :
    ofLines (carried first ++ carried second) =
      (ofLines (carried first)).merge (ofLines (carried second)) := by
  have hfirst : ∀ piece ∈ (carried first).filterMap Line.text?, Solid piece :=
    fun _ => solid_of_mem_texts
  have hsecond : ∀ piece ∈ (carried second).filterMap Line.text?, Solid piece :=
    fun _ => solid_of_mem_texts
  have hboth : ∀ piece ∈ (carried first).filterMap Line.text? ++
      (carried second).filterMap Line.text?, Solid piece := by
    intro piece hpiece
    exact (List.mem_append.mp hpiece).elim (hfirst piece) (hsecond piece)
  have htext : String.ofList (trim (joinWith ['\n']
      ((carried first ++ carried second).filterMap Line.text?))) =
        "\n".intercalate ([(ofLines (carried first)).text,
          (ofLines (carried second)).text].filter (· ≠ "")) := by
    rw [ofLines, ofLines, List.filterMap_append, trim_joinWith_of_solid _ hboth,
      trim_joinWith_of_solid _ hfirst, trim_joinWith_of_solid _ hsecond,
      joinWith_append_of_solid _ hfirst hsecond, ← String.toList_inj, toList_intercalate_filter]
    simp
  have htags : Table.ofOccurrences
      ((carried first ++ carried second).filterMap Line.occurrence?) =
        (ofLines (carried first)).tags.merge (ofLines (carried second)).tags := by
    simp only [ofLines, List.filterMap_append, Table.ofOccurrences_eq_grouped,
      Table.grouped_append]
  rw [ofLines, htags, htext]
  rfl

/-- A comment that goes on behind a newline says what its two parts say: the tags of both, grouped
by name, the names of the first part before the new ones of the second and the occurrences of a name
in the first part before those in the second, and the texts of both, one behind the other. -/
theorem ofString_append_newline (first second : String) :
    ofString (first ++ "\n" ++ second) = (ofString first).merge (ofString second) := by
  have hchars : (first ++ "\n" ++ second).toList = first.toList ++ '\n' :: second.toList := by
    simp
  rw [ofString, hchars, ofChars_eq_ofLines, carried_append_newline, ofLines_append]
  rfl

end ParsedComment

end DocAtlas
