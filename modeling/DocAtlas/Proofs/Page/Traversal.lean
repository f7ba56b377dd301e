import DocAtlas.Proofs.Page.Chapters
import Mathlib.Logic.Function.Iterate

/-!
# The walk of a chapter

The entries of a chapter are found by a walk with a stack. In every round the last entry is taken
from the stack; if it has no section yet, it gets one, and its members are put on the stack in
reverse. An entry may stand on the stack several times, and it may get its section through another
entry while it waits. Still the walk ends, and it visits the entries of the plain traversal, which
goes from an entry to its members one after the other and leaves out what is rendered by then.

The link between the two is a tour of waiting entries: a walk is a tour whose stack is read from its
end, and a tour of entries before others is the plain traversal of the former, followed by a tour of
the latter.
-/

namespace DocAtlas.Page

variable {atlas : Atlas}

/-- More rendered entries leave less to be visited. -/
theorem unvisited_mono (atlas : Atlas) {fewer more : List String} (h : fewer ⊆ more)
    (waiting : List Entry) : unvisited atlas more waiting ≤ unvisited atlas fewer waiting := by
  refine Nat.add_le_add_right (List.countP_mono_left fun entry _ hmore => ?_) _
  rw [decide_eq_true_eq] at hmore ⊢
  exact fun hfewer => hmore (h hfewer)

/-- One waiting entry leaves no more to be visited than it does with others behind it. -/
theorem unvisited_singleton_le (atlas : Atlas) (rendered : List String) (entry : Entry)
    (waiting : List Entry) :
    unvisited atlas rendered [entry] ≤ unvisited atlas rendered (entry :: waiting) := by
  refine Nat.add_le_add_left ?_ _
  exact (List.Sublist.cons_cons entry (List.nil_sublist waiting)).countP_le

mutual

/-- The plain traversal from an entry: nothing if it is rendered, otherwise the entry and then what
the entries lead to that it is linked to. -/
def preorder (atlas : Atlas) (rendered : List String) (entry : Entry) : List Entry :=
  if _h : entry.id ∈ rendered then []
  else entry :: preorderAll atlas (entry.id :: rendered) (atlas.linked entry)
termination_by (unvisited atlas rendered [entry], 0)
decreasing_by
  have hless := unvisited_visit_lt atlas [] _h
  rw [List.append_nil, membersOf_eq_linked] at hless
  exact Prod.Lex.left _ _ hless

/-- The plain traversal from entries, one after the other, each with what is rendered by then. -/
def preorderAll (atlas : Atlas) (rendered : List String) : List Entry → List Entry
  | [] => []
  | entry :: rest =>
    preorder atlas rendered entry ++
      preorderAll atlas ((preorder atlas rendered entry).map Entry.id ++ rendered) rest
termination_by entries => (unvisited atlas rendered entries, entries.length)
decreasing_by
  · exact Prod.Lex.right' _ (unvisited_singleton_le atlas rendered entry rest) (Nat.succ_pos _)
  · have hrest := unvisited_skip_le atlas rendered entry rest
    refine Prod.Lex.right' _ ?_ (Nat.lt_succ_self _)
    exact Nat.le_trans (unvisited_mono atlas (List.subset_append_right _ rendered) rest) hrest

end

/-- A tour depends only on which identities are rendered. -/
theorem tour_congr {first second : List String} (h : ∀ id, id ∈ first ↔ id ∈ second)
    (waiting : List Entry) : tour atlas first waiting = tour atlas second waiting := by
  induction first, waiting using tour.induct atlas generalizing second with
  | case1 rendered => rw [tour, tour]
  | case2 rendered entry waiting hseen _ ih =>
    rw [tour, dif_pos hseen, tour, dif_pos ((h _).mp hseen), ih h]
  | case3 rendered entry waiting hnew _ ih =>
    have hcons : ∀ id, id ∈ entry.id :: rendered ↔ id ∈ entry.id :: second := by
      intro id
      rw [List.mem_cons, List.mem_cons, h]
    rw [tour, dif_neg hnew, tour, dif_neg fun hseen => hnew ((h _).mpr hseen), ih hcons]

/-- A tour of entries before others is the plain traversal of these entries, then a tour of the
others, with all that is rendered by then. -/
theorem tour_append (rendered : List String) (entries waiting : List Entry) :
    tour atlas rendered (entries ++ waiting) = preorderAll atlas rendered entries ++
      tour atlas ((preorderAll atlas rendered entries).map Entry.id ++ rendered) waiting := by
  induction rendered, entries using preorderAll.induct atlas (fun rendered entry =>
      ∀ waiting, tour atlas rendered (entry :: waiting) = preorder atlas rendered entry ++
        tour atlas ((preorder atlas rendered entry).map Entry.id ++ rendered) waiting)
    generalizing waiting with
  | case1 rendered entry hseen waiting =>
    rw [tour, dif_pos hseen, preorder, dif_pos hseen]
    rfl
  | case2 rendered entry hnew ih waiting =>
    -- The entry is rendered before its members here, and together with them in the traversal.
    rw [← membersOf_eq_linked] at ih
    rw [tour, dif_neg hnew, ih, preorder, dif_neg hnew, ← membersOf_eq_linked, List.cons_append]
    refine congrArg (List.cons entry) (congrArg (_ ++ ·) (tour_congr (fun id => ?_) waiting))
    rw [List.map_cons, List.cons_append]
    exact List.perm_middle.mem_iff
  | case3 rendered => rw [preorderAll]; rfl
  | case4 rendered entry rest ihEntry ihRest =>
    rw [List.cons_append, ihEntry, ihRest, preorderAll, List.append_assoc, List.map_append]
    refine congrArg (_ ++ ·) (congrArg (_ ++ ·) (tour_congr (fun id => ?_) waiting))
    simp only [List.mem_append]
    tauto

/-- A tour of one entry is the plain traversal from it. -/
theorem tour_singleton (rendered : List String) (entry : Entry) :
    tour atlas rendered [entry] = preorder atlas rendered entry := by
  have h := @tour_append atlas rendered [entry] []
  rw [List.append_nil, tour, List.append_nil, preorderAll, preorderAll, List.append_nil] at h
  exact h

/-- A walk in progress: the entries that wait, the next one last, the identities that are rendered,
and the entries that have got a section. -/
structure Walk where
  stack : List Entry
  rendered : List String
  entries : List Entry

namespace Walk

/-- One round of a walk. Nothing happens any more when the stack is empty. -/
def step (atlas : Atlas) (walk : Walk) : Walk :=
  match walk.stack.getLast? with
  | none => walk
  | some entry =>
    if entry.id ∈ walk.rendered then { walk with stack := walk.stack.dropLast }
    else
      { stack := walk.stack.dropLast ++ (membersOf atlas entry).reverse
        rendered := entry.id :: walk.rendered
        entries := walk.entries ++ [entry] }

/-- A rendered entry is dropped from the stack. -/
theorem step_of_mem {rendered : List String} {entry : Entry} (h : entry.id ∈ rendered)
    (waiting visited : List Entry) :
    step atlas { stack := (entry :: waiting).reverse, rendered, entries := visited } =
      { stack := waiting.reverse, rendered, entries := visited } := by
  simp [step, h]

/-- Any other entry gets its section, and its members take its place. -/
theorem step_of_notMem {rendered : List String} {entry : Entry} (h : entry.id ∉ rendered)
    (waiting visited : List Entry) :
    step atlas { stack := (entry :: waiting).reverse, rendered, entries := visited } =
      { stack := (membersOf atlas entry ++ waiting).reverse
        rendered := entry.id :: rendered
        entries := visited ++ [entry] } := by
  simp [step, h]

/-- A walk empties its stack after some rounds. It then has made the tour of what was waiting. -/
theorem exists_iterate_step (rendered : List String) (waiting visited : List Entry) :
    ∃ rounds, (step atlas)^[rounds] { stack := waiting.reverse, rendered, entries := visited } =
      { stack := []
        rendered := ((tour atlas rendered waiting).map Entry.id).reverse ++ rendered
        entries := visited ++ tour atlas rendered waiting } := by
  induction rendered, waiting using tour.induct atlas generalizing visited with
  | case1 rendered => exact ⟨0, by simp [tour]⟩
  | case2 rendered entry waiting hseen _ ih =>
    obtain ⟨rounds, hrounds⟩ := ih visited
    refine ⟨rounds + 1, ?_⟩
    rw [Function.iterate_succ_apply, step_of_mem hseen, hrounds, tour, dif_pos hseen]
  | case3 rendered entry waiting hnew _ ih =>
    obtain ⟨rounds, hrounds⟩ := ih (visited ++ [entry])
    refine ⟨rounds + 1, ?_⟩
    rw [Function.iterate_succ_apply, step_of_notMem hnew, hrounds, tour, dif_neg hnew]
    simp

end Walk

/-- The identities that are rendered after some chapters, the last one first. -/
def renderedBy (found : List Chapter) : List String :=
  ((found.flatMap Chapter.entries).map Entry.id).reverse

/-- The entries of a chapter are found by a tour from its heading, after all chapters before it. -/
theorem entries_chapters {rendered : List String} {headings : List Entry}
    {before after : List Chapter} {chapter : Chapter}
    (h : chapters atlas rendered headings = before ++ chapter :: after) :
    chapter.entries = tour atlas (renderedBy before ++ rendered) [chapter.heading] := by
  induction headings generalizing rendered before with
  | nil => simp [chapters] at h
  | cons heading rest ih =>
    rw [chapters] at h
    cases before with
    | nil =>
      obtain ⟨rfl, _⟩ := List.cons.inj h
      rfl
    | cons first others =>
      obtain ⟨rfl, hrest⟩ := List.cons.inj h
      rw [ih hrest]
      refine tour_congr (fun id => ?_) _
      simp only [renderedBy, List.flatMap_cons, List.map_append, List.reverse_append,
        List.mem_append, List.mem_reverse]
      tauto

/-- For every heading of a page the walk with a stack comes to its end, and the sections that it
gives are those of the plain traversal from the heading: an entry before its members, members in the
order of the edges, and nothing that is already rendered, be it under this heading or an earlier
one. -/
theorem markdown_traversal (atlas : Atlas) (title : String) :
    ∃ (found : List Chapter) (rest : List Entry),
      HasOutline atlas title found rest ∧
      found.map Chapter.heading =
        atlas.entries.filter (fun entry => entry.isRoot ∧ entry.namespaces ≠ []) ∧
      ∀ i : Fin found.length,
        (∃ rounds, (Walk.step atlas)^[rounds]
          { stack := [found[i].heading], rendered := renderedBy (found.take i), entries := [] } =
          { stack := []
            rendered := renderedBy (found.take (i + 1))
            entries := found[i].entries }) ∧
        found[i].entries = preorder atlas (renderedBy (found.take i)) found[i].heading := by
  refine ⟨pageChapters atlas, pageOthers atlas, hasOutline atlas title,
    map_heading_pageChapters atlas, ?_⟩
  intro i
  generalize hfound : pageChapters atlas = found at i ⊢
  have hsplit : found = found.take i ++ found[i] :: found.drop (i + 1) := by
    rw [Fin.getElem_fin, ← List.drop_eq_getElem_cons i.isLt, List.take_append_drop]
  have hentries : found[i].entries = tour atlas (renderedBy (found.take i)) [found[i].heading] := by
    rw [entries_chapters (hfound.trans hsplit), List.append_nil]
  have hrendered : renderedBy (found.take (i + 1)) =
      (found[i].entries.map Entry.id).reverse ++ renderedBy (found.take i) := by
    rw [List.take_succ_eq_append_getElem i.isLt, renderedBy, List.flatMap_append,
      List.flatMap_singleton, List.map_append, List.reverse_append]
    rfl
  constructor
  · obtain ⟨rounds, hrounds⟩ :=
      Walk.exists_iterate_step (renderedBy (found.take i)) [found[i].heading] []
    rw [← hentries, ← hrendered] at hrounds
    exact ⟨rounds, hrounds⟩
  · rw [hentries, tour_singleton]

end DocAtlas.Page
