import DocAtlas.Proofs.Atlas.Members
import DocAtlas.Proofs.Page.Blocks
import Mathlib.Data.List.Perm.Basic

/-!
# The chapters of a page

A tour that starts where everything rendered is closed under links visits exactly what the waiting
entries reach and is not rendered yet, and leaves the rendered entries closed. So after each heading
exactly the entries that it or an earlier heading reaches are rendered, every entry has its section
under the first heading that reaches it, and what is left over is reached by none.
-/

namespace DocAtlas

/-- A heading is the first one that reaches an entry. -/
def Atlas.FirstReaches (atlas : Atlas) (heading entry : Entry) : Prop :=
  ∃ before after, atlas.headings = before ++ heading :: after ∧ atlas.Reaches heading entry ∧
    ∀ earlier ∈ before, ¬atlas.Reaches earlier entry

/-- What an entry of the atlas reaches is in the atlas. -/
theorem Atlas.Reaches.mem {atlas : Atlas} {first last : Entry} (h : atlas.Reaches first last)
    (hfirst : first ∈ atlas.entries) : last ∈ atlas.entries := by
  induction h with
  | refl => exact hfirst
  | tail _ hlink _ => exact hlink.1

namespace Page

variable {atlas : Atlas}

/-- A tour visits only what the waiting entries reach. -/
theorem reaches_of_mem_tour (hdistinct : (atlas.entries.map Entry.id).Nodup)
    {rendered : List String} {waiting : List Entry} {entry : Entry}
    (h : entry ∈ tour atlas rendered waiting) : ∃ start ∈ waiting, atlas.Reaches start entry := by
  induction rendered, waiting using tour.induct atlas with
  | case1 rendered => simp [tour] at h
  | case2 rendered first waiting hseen _ ih =>
    rw [tour, dif_pos hseen] at h
    obtain ⟨start, hstart, hreaches⟩ := ih h
    exact ⟨start, List.mem_cons_of_mem _ hstart, hreaches⟩
  | case3 rendered first waiting hnew _ ih =>
    rw [tour, dif_neg hnew, List.mem_cons] at h
    rcases h with rfl | h
    · exact ⟨entry, List.mem_cons_self, .refl⟩
    · obtain ⟨start, hstart, hreaches⟩ := ih h
      rcases List.mem_append.mp hstart with hmember | hwaits
      · have hlink := (Atlas.mem_members_iff hdistinct).mp hmember
        exact ⟨first, List.mem_cons_self, .head hlink hreaches⟩
      · exact ⟨start, List.mem_cons_of_mem _ hwaits, hreaches⟩

/-- A tour visits no entry twice and none that is rendered. -/
theorem nodup_tour (atlas : Atlas) (rendered : List String) (waiting : List Entry) :
    ((tour atlas rendered waiting).map Entry.id).Nodup ∧
      ∀ entry ∈ tour atlas rendered waiting, entry.id ∉ rendered := by
  induction rendered, waiting using tour.induct atlas with
  | case1 rendered => simp [tour]
  | case2 rendered first waiting hseen _ ih =>
    rwa [tour, dif_pos hseen]
  | case3 rendered first waiting hnew _ ih =>
    obtain ⟨hnodup, hfresh⟩ := ih
    rw [tour, dif_neg hnew, List.map_cons, List.nodup_cons, List.forall_mem_cons]
    refine ⟨⟨?_, hnodup⟩, hnew, ?_⟩
    · intro hmem
      obtain ⟨entry, hentry, hid⟩ := List.mem_map.mp hmem
      exact hfresh entry hentry (hid ▸ List.mem_cons_self)
    · intro entry hentry hmem
      exact hfresh entry hentry (List.mem_cons_of_mem _ hmem)

/-- After a tour the waiting entries and the members of the visited ones are rendered. -/
theorem rendered_after_tour (atlas : Atlas) (rendered : List String) (waiting : List Entry) :
    (∀ entry ∈ waiting,
      entry.id ∈ (tour atlas rendered waiting).map Entry.id ++ rendered) ∧
    ∀ entry ∈ tour atlas rendered waiting, ∀ member ∈ membersOf atlas entry,
      member.id ∈ (tour atlas rendered waiting).map Entry.id ++ rendered := by
  induction rendered, waiting using tour.induct atlas with
  | case1 rendered => simp [tour]
  | case2 rendered first waiting hseen _ ih =>
    rw [tour, dif_pos hseen]
    refine ⟨?_, ih.2⟩
    rw [List.forall_mem_cons]
    exact ⟨List.mem_append_right _ hseen, ih.1⟩
  | case3 rendered first waiting hnew _ ih =>
    obtain ⟨hwaits, hmembers⟩ := ih
    rw [tour, dif_neg hnew]
    -- The first entry is rendered before the rest of the tour, but visited in this one.
    have hmove : ∀ id, id ∈ (tour atlas (first.id :: rendered)
          (membersOf atlas first ++ waiting)).map Entry.id ++ first.id :: rendered →
        id ∈ (first :: tour atlas (first.id :: rendered)
          (membersOf atlas first ++ waiting)).map Entry.id ++ rendered := by
      intro id hid
      rw [List.map_cons, List.cons_append]
      exact List.perm_middle.mem_iff.mp hid
    constructor
    · rw [List.forall_mem_cons]
      refine ⟨List.mem_append_left _ List.mem_cons_self, fun entry hentry => ?_⟩
      exact hmove _ (hwaits entry (List.mem_append_right _ hentry))
    · rw [List.forall_mem_cons]
      constructor
      · intro member hmember
        exact hmove _ (hwaits member (List.mem_append_left _ hmember))
      · intro entry hentry member hmember
        exact hmove _ (hmembers entry hentry member hmember)

/-- The rendered entries are exactly those that the given headings reach. -/
def RenderedFrom (atlas : Atlas) (headings : List Entry) (rendered : List String) : Prop :=
  ∀ entry ∈ atlas.entries, entry.id ∈ rendered ↔ ∃ heading ∈ headings, atlas.Reaches heading entry

/-- The tour of a heading visits only entries of the atlas that the heading reaches. -/
theorem reaches_and_mem_of_mem_tour (hdistinct : (atlas.entries.map Entry.id).Nodup)
    {rendered : List String} {heading entry : Entry} (hheading : heading ∈ atlas.entries)
    (hentry : entry ∈ tour atlas rendered [heading]) :
    atlas.Reaches heading entry ∧ entry ∈ atlas.entries := by
  obtain ⟨start, hstart, hreaches⟩ := reaches_of_mem_tour hdistinct hentry
  obtain rfl := List.mem_singleton.mp hstart
  exact ⟨hreaches, hreaches.mem hheading⟩

/-- The tour of a heading visits an entry of the atlas exactly if it visits its identity. -/
theorem id_mem_map_tour_iff (hdistinct : (atlas.entries.map Entry.id).Nodup)
    {rendered : List String} {heading entry : Entry} (hheading : heading ∈ atlas.entries)
    (hentry : entry ∈ atlas.entries) :
    entry.id ∈ (tour atlas rendered [heading]).map Entry.id ↔
      entry ∈ tour atlas rendered [heading] := by
  constructor
  · intro h
    obtain ⟨visited, hvisited, hid⟩ := List.mem_map.mp h
    have hknown := (reaches_and_mem_of_mem_tour hdistinct hheading hvisited).2
    rwa [← Atlas.eq_of_id_eq hdistinct hknown hentry hid]
  · intro h
    exact List.mem_map_of_mem h

/-- If what is rendered is what some headings reach, then all that a further heading reaches is
rendered after its tour. -/
theorem RenderedFrom.id_mem_of_reaches (hdistinct : (atlas.entries.map Entry.id).Nodup)
    {earlier : List Entry} {rendered : List String} (hrendered : RenderedFrom atlas earlier rendered)
    {heading entry : Entry} (hheading : heading ∈ atlas.entries)
    (hreaches : atlas.Reaches heading entry) :
    entry.id ∈ (tour atlas rendered [heading]).map Entry.id ++ rendered := by
  obtain ⟨hstart, hmembers⟩ := rendered_after_tour atlas rendered [heading]
  induction hreaches with
  | refl => exact hstart heading List.mem_cons_self
  | @tail middle last hreaches hlink ih =>
    have hmiddle : middle ∈ atlas.entries := Atlas.Reaches.mem hreaches hheading
    rcases List.mem_append.mp ih with hvisited | hearlier
    · have hmember := (Atlas.mem_members_iff hdistinct).mpr hlink
      have hvisited := (id_mem_map_tour_iff hdistinct hheading hmiddle).mp hvisited
      exact hmembers middle hvisited last hmember
    · obtain ⟨other, hother, hreaches⟩ := (hrendered middle hmiddle).mp hearlier
      refine List.mem_append_right _ ((hrendered last hlink.1).mpr ?_)
      exact ⟨other, hother, hreaches.tail hlink⟩

/-- If what is rendered is what some headings reach, then the tour of a further heading visits
exactly what it reaches and they do not. -/
theorem RenderedFrom.mem_tour_iff (hdistinct : (atlas.entries.map Entry.id).Nodup)
    {earlier : List Entry} {rendered : List String} (hrendered : RenderedFrom atlas earlier rendered)
    {heading : Entry} (hheading : heading ∈ atlas.entries) {entry : Entry} :
    entry ∈ tour atlas rendered [heading] ↔
      atlas.Reaches heading entry ∧ ∀ other ∈ earlier, ¬atlas.Reaches other entry := by
  constructor
  · intro hentry
    obtain ⟨hreaches, hknown⟩ := reaches_and_mem_of_mem_tour hdistinct hheading hentry
    refine ⟨hreaches, fun other hother hreaches => ?_⟩
    exact (nodup_tour atlas rendered [heading]).2 entry hentry
      ((hrendered entry hknown).mpr ⟨other, hother, hreaches⟩)
  · intro h
    obtain ⟨hreaches, hfirst⟩ := h
    have hknown := hreaches.mem hheading
    rcases List.mem_append.mp (hrendered.id_mem_of_reaches hdistinct hheading hreaches) with
      hvisited | hearlier
    · exact (id_mem_map_tour_iff hdistinct hheading hknown).mp hvisited
    · obtain ⟨other, hother, hreaches⟩ := (hrendered entry hknown).mp hearlier
      exact absurd hreaches (hfirst other hother)

/-- The tour of a heading adds what the heading reaches to what is rendered. -/
theorem RenderedFrom.step (hdistinct : (atlas.entries.map Entry.id).Nodup)
    {earlier : List Entry} {rendered : List String} (hrendered : RenderedFrom atlas earlier rendered)
    {heading : Entry} (hheading : heading ∈ atlas.entries) :
    RenderedFrom atlas (earlier ++ [heading])
      ((tour atlas rendered [heading]).map Entry.id ++ rendered) := by
  intro entry hentry
  constructor
  · intro h
    rcases List.mem_append.mp h with hvisited | hearlier
    · have hvisited := (id_mem_map_tour_iff hdistinct hheading hentry).mp hvisited
      have hreaches := (reaches_and_mem_of_mem_tour hdistinct hheading hvisited).1
      exact ⟨heading, List.mem_append_right _ List.mem_cons_self, hreaches⟩
    · obtain ⟨other, hother, hreaches⟩ := (hrendered entry hentry).mp hearlier
      exact ⟨other, List.mem_append_left _ hother, hreaches⟩
  · intro h
    obtain ⟨other, hother, hreaches⟩ := h
    rcases List.mem_append.mp hother with hearlier | hlast
    · exact List.mem_append_right _ ((hrendered entry hentry).mpr ⟨other, hearlier, hreaches⟩)
    · obtain rfl := List.mem_singleton.mp hlast
      exact hrendered.id_mem_of_reaches hdistinct hheading hreaches

/-- There is a chapter per heading, in order. -/
theorem map_heading_chapters (rendered : List String) (headings : List Entry) :
    (chapters atlas rendered headings).map Chapter.heading = headings := by
  induction headings generalizing rendered with
  | nil => rfl
  | cons heading rest ih => rw [chapters, List.map_cons, ih]

/-- The chapters of a page are those of the roots, in order. -/
theorem map_heading_pageChapters (atlas : Atlas) :
    (pageChapters atlas).map Chapter.heading =
      atlas.entries.filter fun entry => entry.isRoot ∧ entry.namespaces ≠ [] := by
  rw [pageChapters, map_heading_chapters, Atlas.headings_eq]

/-- A chapter holds what its heading reaches and no heading before it does. -/
theorem RenderedFrom.mem_entries_iff (hdistinct : (atlas.entries.map Entry.id).Nodup)
    {earlier headings : List Entry} {rendered : List String}
    (hrendered : RenderedFrom atlas earlier rendered)
    (hheadings : ∀ heading ∈ headings, heading ∈ atlas.entries) :
    ∀ chapter ∈ chapters atlas rendered headings, ∃ before after,
      headings = before ++ chapter.heading :: after ∧
      ∀ entry, entry ∈ chapter.entries ↔ atlas.Reaches chapter.heading entry ∧
        ∀ other ∈ earlier ++ before, ¬atlas.Reaches other entry := by
  induction headings generalizing earlier rendered with
  | nil => simp [chapters]
  | cons heading rest ih =>
    rw [List.forall_mem_cons] at hheadings
    intro chapter hchapter
    rw [chapters, List.mem_cons] at hchapter
    rcases hchapter with rfl | hchapter
    · refine ⟨[], rest, rfl, fun entry => ?_⟩
      rw [List.append_nil]
      exact hrendered.mem_tour_iff hdistinct hheadings.1
    · obtain ⟨before, after, hrest, hentries⟩ :=
        ih (hrendered.step hdistinct hheadings.1) hheadings.2 chapter hchapter
      refine ⟨heading :: before, after, by rw [hrest, List.cons_append], fun entry => ?_⟩
      rw [hentries, List.append_assoc, List.singleton_append]

/-- After all chapters exactly what the headings reach is rendered. -/
theorem RenderedFrom.chapters (hdistinct : (atlas.entries.map Entry.id).Nodup)
    {earlier headings : List Entry} {rendered : List String}
    (hrendered : RenderedFrom atlas earlier rendered)
    (hheadings : ∀ heading ∈ headings, heading ∈ atlas.entries) :
    RenderedFrom atlas (earlier ++ headings)
      (((Page.chapters atlas rendered headings).flatMap Chapter.entries).map Entry.id ++
        rendered) := by
  induction headings generalizing earlier rendered with
  | nil => simpa [Page.chapters] using hrendered
  | cons heading rest ih =>
    rw [List.forall_mem_cons] at hheadings
    intro entry hentry
    have hrest := ih (hrendered.step hdistinct hheadings.1) hheadings.2 entry hentry
    rw [List.append_assoc, List.singleton_append] at hrest
    rw [← hrest, Page.chapters, List.flatMap_cons, List.map_append]
    simp only [List.mem_append]
    tauto

/-- Chapters repeat neither each other's entries nor what was rendered before. -/
theorem nodup_chapters (atlas : Atlas) (rendered : List String) (headings : List Entry) :
    (((chapters atlas rendered headings).flatMap Chapter.entries).map Entry.id).Nodup ∧
      ∀ entry ∈ (chapters atlas rendered headings).flatMap Chapter.entries,
        entry.id ∉ rendered := by
  induction headings generalizing rendered with
  | nil => simp [chapters]
  | cons heading rest ih =>
    obtain ⟨hnodup, hfresh⟩ := nodup_tour atlas rendered [heading]
    obtain ⟨hnodups, hfreshs⟩ := ih ((tour atlas rendered [heading]).map Entry.id ++ rendered)
    rw [chapters, List.flatMap_cons, List.map_append]
    constructor
    · refine List.Nodup.append hnodup hnodups ?_
      intro id hfirst hlater
      obtain ⟨entry, hentry, rfl⟩ := List.mem_map.mp hlater
      exact hfreshs entry hentry (List.mem_append_left _ hfirst)
    · intro entry hentry
      rcases List.mem_append.mp hentry with hfirst | hlater
      · exact hfresh entry hfirst
      · exact fun hmem => hfreshs entry hlater (List.mem_append_right _ hmem)

/-- Nothing is rendered from no headings. -/
theorem RenderedFrom.empty (atlas : Atlas) : RenderedFrom atlas [] [] := by
  intro entry _
  simp

/-- A chapter of the page holds exactly the entries that its heading is the first to reach. -/
theorem mem_entries_iff_firstReaches (hdistinct : (atlas.entries.map Entry.id).Nodup)
    {chapter : Chapter} (hchapter : chapter ∈ pageChapters atlas) {entry : Entry} :
    entry ∈ chapter.entries ↔ atlas.FirstReaches chapter.heading entry := by
  have hnodup : atlas.headings.Nodup := (List.Nodup.of_map _ hdistinct).filter _
  obtain ⟨before, after, hsplit, hentries⟩ :=
    (RenderedFrom.empty atlas).mem_entries_iff hdistinct (fun _ => Atlas.mem_of_mem_headings)
      chapter hchapter
  rw [hentries, List.nil_append]
  constructor
  · intro h
    obtain ⟨hreaches, hfirst⟩ := h
    exact ⟨before, after, hsplit, hreaches, hfirst⟩
  · intro h
    obtain ⟨before', after', hsplit', hreaches, hfirst⟩ := h
    -- The heading occurs once, so both ways to split the headings at it are the same.
    have hsplits := hsplit.symm.trans hsplit'
    rw [hsplit, List.nodup_append, List.nodup_cons] at hnodup
    have hnotMem : chapter.heading ∉ before := fun hmem =>
      hnodup.2.2 _ hmem _ List.mem_cons_self rfl
    obtain ⟨rfl, _, _⟩ := (List.append_cons_inj_of_notMem hnotMem hnodup.2.1.1).mp hsplits
    exact ⟨hreaches, hfirst⟩

/-- The entries that no chapter of the page holds are those that no heading reaches. -/
theorem mem_others_iff (hdistinct : (atlas.entries.map Entry.id).Nodup) {entry : Entry} :
    entry ∈ pageOthers atlas ↔
      entry ∈ atlas.entries ∧ ∀ heading ∈ atlas.headings, ¬atlas.Reaches heading entry := by
  have hrendered := (RenderedFrom.empty atlas).chapters hdistinct fun _ => Atlas.mem_of_mem_headings
  rw [List.append_nil, List.nil_append, ← pageChapters] at hrendered
  rw [pageOthers, others, List.mem_filter, decide_eq_true_iff, ← List.map_flatMap]
  refine and_congr_right fun hentry => ?_
  rw [hrendered entry hentry]
  simp

/-- The chapters of the page and the entries that they leave over hold every entry once. -/
theorem perm_entries (hdistinct : (atlas.entries.map Entry.id).Nodup) :
    ((pageChapters atlas).flatMap Chapter.entries ++ pageOthers atlas).Perm atlas.entries := by
  have hknown : ∀ entry ∈ (pageChapters atlas).flatMap Chapter.entries,
      entry ∈ atlas.entries := by
    intro entry hentry
    obtain ⟨chapter, hchapter, hentry⟩ := List.mem_flatMap.mp hentry
    obtain ⟨before, after, hsplit, hreaches, _⟩ :=
      (mem_entries_iff_firstReaches hdistinct hchapter).mp hentry
    have hheading : chapter.heading ∈ atlas.headings := by simp [hsplit]
    exact hreaches.mem (Atlas.mem_of_mem_headings hheading)
  have hothers {entry : Entry} : entry ∈ pageOthers atlas ↔
      entry ∈ atlas.entries ∧
        entry ∉ (pageChapters atlas).flatMap Chapter.entries := by
    rw [pageOthers, others, List.mem_filter, decide_eq_true_iff, ← List.map_flatMap]
    refine and_congr_right fun hentry => not_congr ⟨fun h => ?_, List.mem_map_of_mem⟩
    obtain ⟨visited, hvisited, hid⟩ := List.mem_map.mp h
    rwa [← Atlas.eq_of_id_eq hdistinct (hknown visited hvisited) hentry hid]
  have hnodup := List.Nodup.of_map _ hdistinct
  have hchapters : ((pageChapters atlas).flatMap Chapter.entries).Nodup :=
    List.Nodup.of_map _ (nodup_chapters atlas [] atlas.headings).1
  have hrest : (pageOthers atlas).Nodup := hnodup.filter _
  refine (List.perm_ext_iff_of_nodup (hchapters.append hrest ?_) hnodup).mpr ?_
  · intro entry hentry hother
    exact (hothers.mp hother).2 hentry
  · intro entry
    rw [List.mem_append, hothers]
    constructor
    · intro h
      rcases h with hentry | ⟨hentry, _⟩
      · exact hknown entry hentry
      · exact hentry
    · intro hentry
      by_cases hfound : entry ∈ (pageChapters atlas).flatMap Chapter.entries
      · exact Or.inl hfound
      · exact Or.inr ⟨hentry, hfound⟩

/-- A page gives every entry its section exactly once: under the first heading that reaches it, and
at the end, in the order of the atlas, if none does. -/
theorem markdown_sections (hdistinct : (atlas.entries.map Entry.id).Nodup) (title : String) :
    ∃ (found : List Chapter) (rest : List Entry),
      HasOutline atlas title found rest ∧
      found.map Chapter.heading =
        atlas.entries.filter (fun entry => entry.isRoot ∧ entry.namespaces ≠ []) ∧
      (∀ chapter ∈ found, ∀ entry,
        entry ∈ chapter.entries ↔ atlas.FirstReaches chapter.heading entry) ∧
      rest.Sublist atlas.entries ∧
      (∀ entry, entry ∈ rest ↔
        entry ∈ atlas.entries ∧ ∀ heading ∈ atlas.headings, ¬atlas.Reaches heading entry) ∧
      (found.flatMap Chapter.entries ++ rest).Perm atlas.entries := by
  refine ⟨pageChapters atlas, pageOthers atlas, hasOutline atlas title,
    map_heading_pageChapters atlas, ?_, List.filter_sublist, ?_, ?_⟩
  · intro chapter hchapter entry
    exact mem_entries_iff_firstReaches hdistinct hchapter
  · intro entry
    exact mem_others_iff hdistinct
  · exact perm_entries hdistinct

/-- The page of two headings that share members in a circle. -/
theorem markdown_sections_ring :
    (Atlas.ring.entries.map Entry.id).Nodup ∧
      ∃ (found : List Chapter) (rest : List Entry),
        HasOutline .ring "Docs" found rest ∧
        found.map Chapter.heading =
          Atlas.ring.entries.filter (fun entry => entry.isRoot ∧ entry.namespaces ≠ []) ∧
        (∀ chapter ∈ found, ∀ entry,
          entry ∈ chapter.entries ↔ Atlas.ring.FirstReaches chapter.heading entry) ∧
        rest.Sublist Atlas.ring.entries ∧
        (∀ entry, entry ∈ rest ↔ entry ∈ Atlas.ring.entries ∧
          ∀ heading ∈ Atlas.ring.headings, ¬Atlas.ring.Reaches heading entry) ∧
        (found.flatMap Chapter.entries ++ rest).Perm Atlas.ring.entries := by
  have hdistinct : (Atlas.ring.entries.map Entry.id).Nodup := by decide
  exact ⟨hdistinct, markdown_sections hdistinct "Docs"⟩

end Page

end DocAtlas
