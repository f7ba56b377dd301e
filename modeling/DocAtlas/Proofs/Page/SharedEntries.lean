import DocAtlas.Proofs.Element.Outline
import DocAtlas.Proofs.Page.Chapters

/-!
# The entries that both pages show

The forest shows an entry wherever a simple path leads to it, the Markdown page under the first
heading that reaches it. An entry that is reached at all is reached by a simple path, so the panels
of the forest and the chapters of the Markdown page show the same entries, and the entries that the
Markdown page lists at the end are those without a panel.
-/

namespace DocAtlas

open DocAtlas.Element

namespace Atlas

variable {atlas : Atlas} {root entry : Entry}

/-- A simple path leads to an entry that its root reaches. -/
theorem SimplePath.exists_reaches {path : List Entry} (hpath : atlas.SimplePath root path) :
    ∃ last, path.getLast? = some last ∧ atlas.Reaches root last := by
  obtain ⟨rest, rfl⟩ := List.head?_eq_some_iff.mp hpath.starts
  refine ⟨_, List.getLast?_eq_some_getLast (List.cons_ne_nil root rest), ?_⟩
  exact List.relationReflTransGen_of_exists_isChain_cons rest hpath.linked rfl

/-- A simple path to an entry on it can stop there. -/
theorem SimplePath.upTo {before after : List Entry}
    (hpath : atlas.SimplePath root (before ++ entry :: after)) :
    atlas.SimplePath root (before ++ [entry]) := by
  have hsplit : before ++ entry :: after = before ++ [entry] ++ after := by simp
  constructor
  · have hstarts := hpath.starts
    cases before <;> simpa using hstarts
  · have hlinked := hpath.linked
    rw [hsplit] at hlinked
    exact hlinked.left_of_append
  · have hnodup := hpath.distinct
    rw [hsplit] at hnodup
    exact hnodup.of_append_left

/-- A simple path can take a link to an entry that is not on it. -/
theorem SimplePath.step {path : List Entry} {last : Entry} (hpath : atlas.SimplePath root path)
    (hlast : path.getLast? = some last) (hlink : atlas.Links last entry) (hnew : entry ∉ path) :
    atlas.SimplePath root (path ++ [entry]) := by
  constructor
  · rw [List.head?_append, hpath.starts]
    rfl
  · refine hpath.linked.append (List.isChain_singleton _) ?_
    intro x hx y hy
    obtain rfl : last = x := Option.some.inj (hlast.symm.trans hx)
    obtain rfl : entry = y := by simpa using hy
    exact hlink
  · rw [List.nodup_append]
    refine ⟨hpath.distinct, List.nodup_singleton _, ?_⟩
    intro x hx y hy heq
    obtain rfl := List.mem_singleton.mp hy
    exact hnew (heq ▸ hx)

/-- What an entry reaches, it reaches by a simple path: where a walk comes back to an entry, the
path stops at its first visit instead. -/
theorem Reaches.exists_simplePath (h : atlas.Reaches root entry) :
    ∃ path, atlas.SimplePath root path ∧ path.getLast? = some entry := by
  induction h with
  | refl => exact ⟨[root], ⟨rfl, List.isChain_singleton _, List.nodup_singleton _⟩, rfl⟩
  | @tail middle last _ hlink ih =>
    obtain ⟨path, hpath, hmiddle⟩ := ih
    by_cases hmem : last ∈ path
    · obtain ⟨before, after, rfl⟩ := List.append_of_mem hmem
      exact ⟨before ++ [last], hpath.upTo, List.getLast?_concat⟩
    · exact ⟨path ++ [last], hpath.step hmiddle hlink hmem, List.getLast?_concat⟩

end Atlas

namespace Site

variable {site : Site}

/-- The tab of a heading that is a member of itself repeats the overview. -/
theorem panelsOf_tab_self (hdistinct : (site.atlas.entries.map Entry.id).Nodup) {heading : Entry}
    (hheading : heading ∈ site.atlas.entries) (slug : String) {tab : Tab}
    (htab : tab.entry = heading) :
    site.panelsOf (panelSketch (wrapperSketch heading slug).spec tab) =
      [(some heading.id, [heading.id, heading.id])] := by
  have hspec : (panelSketch (wrapperSketch heading slug).spec tab).spec =
      { expand := .fields
        sourceId := some heading.id
        group := some heading.group
        path := [heading.id, heading.id] } := by
    simp [panelSketch, sketch, wrapperSketch, htab]
  exact panelsOf_overview hdistinct hheading rfl (by simp [panelSketch, sketch, htab]) hspec

/-- The tab of another member shows where the simple paths lead that begin with the link to it. -/
theorem mem_sources_tab_member_iff (hdistinct : (site.atlas.entries.map Entry.id).Nodup)
    {heading member : Entry} (hheading : heading ∈ site.atlas.entries)
    (hlink : site.atlas.Links heading member) (hne : heading ≠ member) (slug : String) {tab : Tab}
    (htab : tab.entry = member) {source : Option String} :
    source ∈ (site.panelsOf (panelSketch (wrapperSketch heading slug).spec tab)).map Prod.fst ↔
      ∃ path, site.atlas.SimplePath heading path ∧ [heading, member] <+: path ∧
        path.getLast?.map Entry.id = source := by
  have htrail := (Atlas.Trail.single hheading).step hlink (by simpa using hne.symm)
  have hspec : (panelSketch (wrapperSketch heading slug).spec tab).spec =
      { expand := .fields
        sourceId := some member.id
        group := some heading.group
        path := [heading, member].map Entry.id } := by
    simp [panelSketch, sketch, wrapperSketch, htab]
  rw [panelsOf_content hdistinct htrail (by simpa using hne) rfl
    (by simp [panelSketch, sketch, htab]) hspec, List.map_map, List.mem_map]
  constructor
  · intro h
    obtain ⟨path, hpath, rfl⟩ := h
    obtain ⟨⟨rest, rfl⟩, hlinked, hnodup⟩ := (Atlas.mem_extensions_iff hdistinct htrail).mp hpath
    exact ⟨_, ⟨rfl, hlinked, hnodup⟩, ⟨rest, rfl⟩, rfl⟩
  · intro h
    obtain ⟨path, hpath, hbegin, rfl⟩ := h
    refine ⟨path, (Atlas.mem_extensions_iff hdistinct htrail).mpr ?_, rfl⟩
    exact ⟨hbegin, hpath.linked, hpath.distinct⟩

/-- The panels in the tree of a heading are those of its tabs. -/
theorem panels_grow_rootInfo (hdistinct : (site.atlas.entries.map Entry.id).Nodup)
    {heading : Entry} (hheading : heading ∈ site.atlas.entries) {slug : String}
    (hslug : site.slug? heading.id = some slug) (index : ℕ) :
    (site.grow (site.rootInfo index heading)).panels =
      (site.headingTabs heading slug).flatMap fun tab =>
        site.panelsOf (panelSketch (wrapperSketch heading slug).spec tab) := by
  have hlinks : (site.atlas.headings.map (site.navSublink (some ("nav-" ++ slug)))).filter
      (·.kind = "content") = [] := by
    simp [navSublink, sketch]
  have htabs : ((site.headingTabs heading slug).map
      (tabSketch (stripSketch heading slug).spec)).filter (·.kind = "content") = [] := by
    simp [tabSketch, sketch]
  rw [panels_grow, panelsOf, outline_rootInfo hdistinct hheading hslug index]
  simp only [List.filter_append, List.filter_cons, hlinks, htabs, List.filter_flatMap]
  simp [rootInfo, linkSketch, containerSketch, stripSketch, wrapperSketch, sketch,
    List.map_flatMap, panelsOf]

/-- The panels in the tree of a heading show exactly the entries that the heading reaches. -/
theorem mem_sources_grow_rootInfo_iff (hdistinct : (site.atlas.entries.map Entry.id).Nodup)
    {heading : Entry} (hheading : heading ∈ site.atlas.entries) {slug : String}
    (hslug : site.slug? heading.id = some slug) (index : ℕ) {source : Option String} :
    source ∈ (site.grow (site.rootInfo index heading)).panels.map Prod.fst ↔
      ∃ entry, site.atlas.Reaches heading entry ∧ source = some entry.id := by
  have hoverview := panelsOf_tab_self hdistinct hheading slug
    (show (overviewTab heading slug).entry = heading from rfl)
  rw [panels_grow_rootInfo hdistinct hheading hslug, headingTabs, List.flatMap_cons, hoverview,
    List.map_append, List.map_flatMap, List.mem_append, List.mem_flatMap]
  constructor
  · intro h
    rcases h with h | ⟨tab, htab, h⟩
    · exact ⟨heading, .refl, by simpa using h⟩
    · obtain ⟨position, hposition, rfl⟩ := List.mem_mapIdx.mp htab
      have hlink := (Atlas.mem_members_iff hdistinct).mp (List.getElem_mem hposition)
      by_cases hself : heading = (heading.members site.atlas.get?)[position]
      · rw [panelsOf_tab_self hdistinct hheading slug hself.symm] at h
        exact ⟨heading, .refl, by simpa using h⟩
      · obtain ⟨path, hpath, _, rfl⟩ :=
          (mem_sources_tab_member_iff hdistinct hheading hlink hself slug rfl).mp h
        obtain ⟨last, hlast, hreaches⟩ := hpath.exists_reaches
        exact ⟨last, hreaches, congrArg (Option.map Entry.id) hlast⟩
  · intro h
    obtain ⟨entry, hreaches, rfl⟩ := h
    obtain ⟨path, hpath, hlast⟩ := hreaches.exists_simplePath
    obtain ⟨rest, rfl⟩ := List.head?_eq_some_iff.mp hpath.starts
    cases rest with
    | nil =>
      obtain rfl : heading = entry := by simpa using hlast
      exact Or.inl (by simp)
    | cons member rest =>
      have hlink : site.atlas.Links heading member := (List.isChain_cons_cons.mp hpath.linked).1
      have hne : heading ≠ member := by
        have hnew := (List.nodup_cons.mp hpath.distinct).1
        exact fun h => hnew (h ▸ List.mem_cons_self)
      obtain ⟨position, hposition, hmember⟩ :=
        List.mem_iff_getElem.mp ((Atlas.mem_members_iff hdistinct).mpr hlink)
      refine Or.inr ⟨_, List.mem_mapIdx.mpr ⟨position, hposition, rfl⟩, ?_⟩
      refine (mem_sources_tab_member_iff hdistinct hheading hlink hne slug hmember).mpr ?_
      exact ⟨_, hpath, ⟨rest, rfl⟩, congrArg (Option.map Entry.id) hlast⟩

end Site

namespace Atlas

variable {atlas : Atlas}

/-- The entries that the panels of a forest show. -/
def shownEntries (atlas : Atlas) : List (Option String) :=
  (atlas.forest.flatMap Node.panels).map Prod.fst

/-- The panels of the forest show exactly the entries that a heading reaches. -/
theorem mem_shownEntries_iff (hdistinct : (atlas.entries.map Entry.id).Nodup)
    {source : Option String} :
    source ∈ atlas.shownEntries ↔ ∃ heading ∈ atlas.headings, ∃ entry,
      atlas.Reaches heading entry ∧ source = some entry.id := by
  have hsite : ((atlas.site "").atlas.entries.map Entry.id).Nodup := hdistinct
  have htree (index : ℕ) {heading : Entry} (hheading : heading ∈ atlas.headings) :
      source ∈ ((atlas.site "").grow ((atlas.site "").rootInfo index heading)).panels.map
          Prod.fst ↔
        ∃ entry, atlas.Reaches heading entry ∧ source = some entry.id := by
    obtain ⟨slug, hslug⟩ := exists_slug? hheading ""
    exact Site.mem_sources_grow_rootInfo_iff hsite (mem_of_mem_headings hheading) hslug index
  rw [shownEntries, List.map_flatMap, List.mem_flatMap]
  constructor
  · intro h
    obtain ⟨tree, htree', hsource⟩ := h
    obtain ⟨info, hinfo, rfl⟩ := List.mem_map.mp htree'
    obtain ⟨index, hindex, rfl⟩ := List.mem_mapIdx.mp hinfo
    have hheading : (atlas.site "").atlas.headings[index] ∈ atlas.headings :=
      List.getElem_mem hindex
    exact ⟨_, hheading, (htree index hheading).mp hsource⟩
  · intro h
    obtain ⟨heading, hheading, hreaches⟩ := h
    obtain ⟨index, hindex, rfl⟩ := List.mem_iff_getElem.mp hheading
    refine ⟨_, List.mem_map_of_mem (List.mem_mapIdx.mpr ⟨index, hindex, rfl⟩), ?_⟩
    exact (htree index hheading).mpr hreaches

end Atlas

namespace Page

variable {atlas : Atlas}

/-- The chapters of the Markdown page hold exactly the entries that a heading reaches. -/
theorem mem_flatMap_pageChapters_iff (hdistinct : (atlas.entries.map Entry.id).Nodup)
    {entry : Entry} :
    entry ∈ (pageChapters atlas).flatMap Chapter.entries ↔
      ∃ heading ∈ atlas.headings, atlas.Reaches heading entry := by
  constructor
  · intro h
    obtain ⟨chapter, hchapter, hentry⟩ := List.mem_flatMap.mp h
    obtain ⟨before, after, hsplit, hreaches, _⟩ :=
      (mem_entries_iff_firstReaches hdistinct hchapter).mp hentry
    exact ⟨chapter.heading, by simp [hsplit], hreaches⟩
  · intro h
    obtain ⟨heading, hheading, hreaches⟩ := h
    have hentry := hreaches.mem (Atlas.mem_of_mem_headings hheading)
    rcases List.mem_append.mp ((perm_entries hdistinct).mem_iff.mpr hentry) with h | h
    · exact h
    · exact absurd hreaches (((mem_others_iff hdistinct).mp h).2 heading hheading)

/-- The forest and the Markdown page show the same entries: the entries of the panels are those of
the chapters, and the entries that the Markdown page lists after its chapters are those that have no
panel anywhere. -/
theorem markdown_entries_eq_panels (hdistinct : (atlas.entries.map Entry.id).Nodup)
    (title : String) :
    ∃ (found : List Chapter) (rest : List Entry),
      HasOutline atlas title found rest ∧
      found.map Chapter.heading =
        atlas.entries.filter (fun entry => entry.isRoot ∧ entry.namespaces ≠ []) ∧
      (∀ source, source ∈ atlas.shownEntries ↔
        ∃ entry ∈ found.flatMap Chapter.entries, source = some entry.id) ∧
      ∀ entry, entry ∈ rest ↔ entry ∈ atlas.entries ∧ some entry.id ∉ atlas.shownEntries := by
  refine ⟨pageChapters atlas, pageOthers atlas, hasOutline atlas title,
    map_heading_pageChapters atlas, ?_, ?_⟩
  · intro source
    rw [Atlas.mem_shownEntries_iff hdistinct]
    constructor
    · intro h
      obtain ⟨heading, hheading, entry, hreaches, rfl⟩ := h
      refine ⟨entry, (mem_flatMap_pageChapters_iff hdistinct).mpr ?_, rfl⟩
      exact ⟨heading, hheading, hreaches⟩
    · intro h
      obtain ⟨entry, hentry, rfl⟩ := h
      obtain ⟨heading, hheading, hreaches⟩ := (mem_flatMap_pageChapters_iff hdistinct).mp hentry
      exact ⟨heading, hheading, entry, hreaches, rfl⟩
  · intro entry
    rw [mem_others_iff hdistinct, Atlas.mem_shownEntries_iff hdistinct]
    refine and_congr_right fun hentry => ?_
    constructor
    · intro hnone h
      obtain ⟨heading, hheading, other, hreaches, hid⟩ := h
      have hother := hreaches.mem (Atlas.mem_of_mem_headings hheading)
      obtain rfl := Atlas.eq_of_id_eq hdistinct hentry hother (Option.some.inj hid)
      exact hnone heading hheading hreaches
    · intro hnone heading hheading hreaches
      exact hnone ⟨heading, hheading, entry, hreaches, rfl⟩

/-- Both pages of two headings that share members in a circle show the same entries. -/
theorem markdown_entries_eq_panels_ring :
    (Atlas.ring.entries.map Entry.id).Nodup ∧
      ∃ (found : List Chapter) (rest : List Entry),
        HasOutline .ring "Docs" found rest ∧
        found.map Chapter.heading =
          Atlas.ring.entries.filter (fun entry => entry.isRoot ∧ entry.namespaces ≠ []) ∧
        (∀ source, source ∈ Atlas.ring.shownEntries ↔
          ∃ entry ∈ found.flatMap Chapter.entries, source = some entry.id) ∧
        ∀ entry, entry ∈ rest ↔
          entry ∈ Atlas.ring.entries ∧ some entry.id ∉ Atlas.ring.shownEntries := by
  have hdistinct : (Atlas.ring.entries.map Entry.id).Nodup := by decide
  exact ⟨hdistinct, markdown_entries_eq_panels hdistinct "Docs"⟩

end Page

end DocAtlas
