import DocAtlas.Proofs.Element.Layout
import DocAtlas.Proofs.Element.Slugs
import DocAtlas.Proofs.Element.Stopping

/-!
# Completing a tree

A tree may come with the children of some nodes given and those of others missing. Completing it
makes the missing ones and touches nothing else: what was given stays at its address. What a node
without given children gets follows from the node alone, so a node whose source is unknown has a
placeholder below it and does not disturb its neighbours. What is left stays as it is when it is
completed again.

Completing gets to its end unless a given node lacks the attributes that its missing children take
over. Where it does not, it stops at the first such node: everything before that node in pre-order is
complete, and the rest is as it was given.

Nodes are told apart by their addresses, as the identities of given nodes may be anything. The
argument rests on one fact about addresses in the completed tree: what stands there is a given node,
completed in turn or as it was, or it has grown from its own information.
-/

namespace DocAtlas

open DocAtlas.Element

namespace Element.Node

/-- Are the children of the node at an address given? -/
def givenAt (node : Node) (address : List ℕ) : Bool :=
  (node.subtree? address).any isResolved

end Element.Node

namespace Atlas

/-- Does the atlas have the source that a specification needs? Fields need an entry of that
identity, and what belongs to a heading needs a heading of that identity. -/
def HasSource (atlas : Atlas) (spec : Spec) : Prop :=
  match spec.expand with
  | .none | .navLinks => True
  | .fields => ∃ entry ∈ atlas.entries, spec.sourceId = some entry.id
  | .rootItem | .container | .tabs | .panels =>
    ∃ heading ∈ atlas.headings, spec.sourceId = some heading.id

variable {atlas : Atlas}

/-- What has a slug is a heading. -/
theorem exists_heading_of_slug? {mark id slug : String}
    (h : (atlas.site mark).slug? id = some slug) :
    ∃ heading ∈ atlas.headings, heading.id = id := by
  have hid := List.mem_map_of_mem (f := Prod.fst) (SlugTable.mem_of_get? h)
  rw [site, slugs, map_fst_assignSlugs] at hid
  exact List.mem_map.mp hid

/-- What a specification for a heading looks up is there if there is such a heading. -/
theorem headingSource_of_mem {heading : Entry} (hheading : heading ∈ atlas.headings)
    (mark : String) {spec : Spec} (hsource : spec.sourceId = some heading.id) :
    (atlas.site mark).HeadingSource spec := by
  obtain ⟨entry, hentry⟩ := exists_latest? (mem_of_mem_headings hheading)
  obtain ⟨slug, hslug⟩ := exists_slug? hheading mark
  exact ⟨heading.id, entry, slug, hsource, hentry, hslug⟩

/-- A specification whose source is there is that of a sound sketch of a suitable kind. -/
theorem HasSource.exists_sound {spec : Spec} (h : atlas.HasSource spec) (mark : String) :
    ∃ kind, (atlas.site mark).Sound { kind, attributes := some {}, spec } := by
  obtain ⟨expand, sourceId, group, path⟩ := spec
  cases expand with
  | none => exact ⟨"field", rfl, .leaf (by simp) rfl⟩
  | navLinks => exact ⟨"nav-link", rfl, .navLink rfl rfl⟩
  | rootItem =>
    obtain ⟨heading, hheading, hsource⟩ := h
    exact ⟨"root-item", rfl, .rootItem rfl rfl (headingSource_of_mem hheading mark hsource)⟩
  | container =>
    obtain ⟨heading, hheading, hsource⟩ := h
    exact ⟨"container", rfl, .container rfl rfl (headingSource_of_mem hheading mark hsource)⟩
  | tabs =>
    obtain ⟨heading, hheading, hsource⟩ := h
    exact ⟨"tab-strip", rfl, .tabStrip rfl rfl (headingSource_of_mem hheading mark hsource)⟩
  | panels =>
    obtain ⟨heading, hheading, hsource⟩ := h
    exact ⟨"content-wrapper", rfl,
      .contentWrapper rfl rfl (headingSource_of_mem hheading mark hsource)⟩
  | fields =>
    obtain ⟨entry, hentry, hsource⟩ := h
    obtain ⟨found, hfound⟩ := exists_latest? hentry
    exact ⟨"content", rfl, .content rfl rfl ⟨entry.id, found, hsource, hfound⟩⟩

/-- If the children that a specification stands for can be made, its source is there. -/
theorem hasSource_of_expand? {mark : String} {domId : Option String} {spec : Spec}
    {sketches : List Sketch} (h : (atlas.site mark).expand? domId spec = some sketches) :
    atlas.HasSource spec := by
  obtain ⟨expand, sourceId, group, path⟩ := spec
  have hheading {id slug : String} (hslug : (atlas.site mark).slug? id = some slug) :
      ∃ heading ∈ atlas.headings, some id = some heading.id := by
    obtain ⟨heading, hheading, rfl⟩ := exists_heading_of_slug? hslug
    exact ⟨heading, hheading, rfl⟩
  have htabs {tabs : List Site.Tab} (htabs : (atlas.site mark).tabsOf? sourceId = some tabs) :
      ∃ heading ∈ atlas.headings, sourceId = some heading.id := by
    simp only [Site.tabsOf?, Option.bind_eq_bind, Option.bind_eq_some_iff] at htabs
    obtain ⟨_, _, slug, ⟨id, rfl, hslug⟩, _⟩ := htabs
    exact hheading hslug
  cases expand with
  | none | navLinks => trivial
  | rootItem =>
    simp only [Site.expand?, Site.rootChildren?, Option.bind_eq_bind,
      Option.bind_eq_some_iff] at h
    obtain ⟨entry, ⟨id, rfl, hentry⟩, slug, hslug, _⟩ := h
    rw [id_of_latest? hentry] at hslug
    exact hheading hslug
  | container =>
    simp only [Site.expand?, Site.containerChildren?, Option.bind_eq_bind,
      Option.bind_eq_some_iff] at h
    obtain ⟨slug, ⟨id, rfl, hslug⟩, _⟩ := h
    exact hheading hslug
  | tabs | panels =>
    obtain ⟨tabs, hfound, _⟩ := Option.map_eq_some_iff.mp h
    exact htabs hfound
  | fields =>
    obtain ⟨entry, hentry, _⟩ := Option.map_eq_some_iff.mp h
    obtain ⟨id, rfl, hlatest⟩ := Option.bind_eq_some_iff.mp hentry
    exact ⟨entry, mem_of_latest? hlatest, by rw [id_of_latest? hlatest]⟩

/-- What a specification stands for cannot be made exactly if its source is missing. -/
theorem expand?_eq_none_iff {mark : String} {domId : Option String} {spec : Spec} :
    (atlas.site mark).expand? domId spec = none ↔ ¬atlas.HasSource spec := by
  constructor
  · intro hnone hsource
    obtain ⟨kind, hsound⟩ := hsource.exists_sound mark
    obtain ⟨sketches, hsketches, _⟩ := hsound.exists_expand? domId
    rw [hnone] at hsketches
    cases hsketches
  · intro hsource
    rw [Option.eq_none_iff_forall_ne_some]
    exact fun sketches hsketches => hsource (hasSource_of_expand? hsketches)

/-! ## Attributes that children take over -/

/-- The children of a node with the given specification take over attributes of the node: a
placeholder its group, and links and the panels of members its identifier in the page. -/
inductive NeedsAttributes (atlas : Atlas) (spec : Spec) : Prop
  | placeholder (hsource : ¬atlas.HasSource spec)
  | links (hexpand : spec.expand = .navLinks) (hheadings : atlas.headings ≠ [])
  | panels {id : String} {entry member : Entry} {edge : Edge} (hexpand : spec.expand = .fields)
      (hid : spec.sourceId = some id) (hentry : atlas.latest? id = some entry)
      (hoverview : spec.path.head? ≠ some id) (hedge : edge ∈ entry.children)
      (hmember : atlas.latest? edge.id = some member) (hpath : member.id ∉ spec.path)

/-- The members that panels are made for are what the edges of an entry lead to. -/
theorem mem_panelMembers_iff {entry member : Entry} :
    member ∈ atlas.panelMembers entry ↔
      ∃ edge ∈ entry.children, atlas.latest? edge.id = some member := by
  rw [panelMembers, Entry.members, mem_distinctById_iff, List.mem_filterMap]
  · simp
  intro first hfirst second hsecond hid
  obtain ⟨edge, _, hfirst⟩ := List.mem_filterMap.mp hfirst
  obtain ⟨other, _, hsecond⟩ := List.mem_filterMap.mp hsecond
  rw [← id_of_latest? hfirst, hid, id_of_latest? hsecond, hsecond] at hfirst
  exact (Option.some.inj hfirst).symm

/-- An entry that is no overview has the panel of a member if that member is not on the path. -/
theorem any_memberPanels_iff {domId : Option String} {spec : Spec} {entry : Entry} :
    (Site.memberPanels atlas domId spec entry).any (·.kind = "content") = true ↔
      spec.path.head? ≠ some entry.id ∧
        ∃ member ∈ atlas.panelMembers entry, member.id ∉ spec.path := by
  rw [Site.memberPanels]
  split
  · next hoverview => simp [hoverview]
  · next hoverview =>
    have hnumbered : (atlas.panelMembers entry).zipIdx.any (fun pair => pair.1.id ∉ spec.path) =
        (atlas.panelMembers entry).any (·.id ∉ spec.path) := by
      conv_rhs => rw [← List.zipIdx_map_fst 0 (atlas.panelMembers entry), List.any_map]
      rfl
    rw [List.any_map, List.any_filter]
    simp only [Function.comp_def, Site.memberSketch, sketch, decide_true, Bool.and_true]
    rw [hnumbered]
    simp [hoverview]

/-- Making children reads the attributes of the node exactly if they take some over. -/
theorem readsAttributes_iff {mark : String} {spec : Spec} :
    (atlas.site mark).readsAttributes spec = true ↔ atlas.NeedsAttributes spec := by
  cases hsketches : (atlas.site mark).expand? none spec with
  | none =>
    rw [Site.readsAttributes, hsketches]
    exact iff_of_true rfl (.placeholder (expand?_eq_none_iff.mp hsketches))
  | some sketches =>
    have hsource := hasSource_of_expand? hsketches
    rw [Site.readsAttributes, hsketches]
    cases hexpand : spec.expand with
    | none | rootItem | container | tabs | panels =>
      refine iff_of_false Bool.false_ne_true fun hneeds => ?_
      cases hneeds with
      | placeholder hmissing => exact hmissing hsource
      | links hother | panels hother => simp [hexpand] at hother
    | navLinks =>
      rw [Site.expand?, hexpand] at hsketches
      obtain rfl := Option.some.inj hsketches
      constructor
      · intro h
        refine .links hexpand fun hnil => ?_
        simp [site, hnil] at h
      · intro hneeds
        cases hneeds with
        | placeholder hmissing => exact absurd hsource hmissing
        | links _ hheadings => simpa [site] using hheadings
        | panels hother => simp [hexpand] at hother
    | fields =>
      rw [Site.expand?, hexpand] at hsketches
      obtain ⟨entry, hentry, rfl⟩ := Option.map_eq_some_iff.mp hsketches
      obtain ⟨id, hid, hlatest⟩ := Option.bind_eq_some_iff.mp hentry
      have hpanels : ((atlas.fieldsOf entry).map (Site.fieldSketch spec.group) ++
          Site.memberPanels atlas none spec entry).any (·.kind = "content") =
            (Site.memberPanels atlas none spec entry).any (·.kind = "content") := by
        simp [Site.fieldSketch, sketch]
      refine (iff_of_eq (congrArg (· = true) hpanels)).trans ?_
      rw [any_memberPanels_iff, id_of_latest? hlatest]
      constructor
      · intro h
        obtain ⟨hoverview, member, hmember, hpath⟩ := h
        obtain ⟨edge, hedge, hmember⟩ := mem_panelMembers_iff.mp hmember
        exact .panels hexpand hid hlatest hoverview hedge hmember hpath
      · intro hneeds
        cases hneeds with
        | placeholder hmissing => exact absurd hsource hmissing
        | links hother => simp [hexpand] at hother
        | panels _ hother hentry hoverview hedge hmember hpath =>
          obtain rfl := Option.some.inj (hid.symm.trans hother)
          obtain rfl := Option.some.inj (hlatest.symm.trans hentry)
          exact ⟨hoverview, _, mem_panelMembers_iff.mpr ⟨_, hedge, hmember⟩, hpath⟩

end Atlas

namespace Site

variable {site : Site}

/-- The children of a node are made as its specification asks: a placeholder exactly if the source
is missing, and otherwise all that the specification stands for. -/
structure Completed (site : Site) (node : Node) : Prop where
  failed_iff : (∃ placeholder : Node, node.children = [placeholder] ∧
    placeholder.info.kind = "error" ∧ placeholder.children = []) ↔
      ¬site.atlas.HasSource node.info.spec
  failed : ¬site.atlas.HasSource node.info.spec →
    node.children = [node.info.placeholder site.mark]
  made : site.atlas.HasSource node.info.spec → ∃ sketches,
    site.expand? (node.info.attribute? Attributes.domId) node.info.spec = some sketches ∧
      node.children.map Node.info = sketches.mapIdx (node.info.child site.mark)

end Site

/-- No child of a node that is laid out is a placeholder. -/
theorem Element.KindScheme.error_notMem {headings : ℕ} {kind : String} {kinds : List String}
    (h : KindScheme headings kind kinds) : "error" ∉ kinds := by
  cases h <;> simp [List.mem_replicate]

namespace Atlas

/-- A grown tree has its children made as its specification asks. -/
theorem completed_grow (atlas : Atlas) (mark : String) (info : NodeInfo) :
    (atlas.site mark).Completed ((atlas.site mark).grow info) := by
  have hinfo := (atlas.site mark).info_grow info
  by_cases hsource : atlas.HasSource info.spec
  · obtain ⟨kind, hsound⟩ := hsource.exists_sound mark
    obtain ⟨sketches, hexpand, hsketches⟩ :=
      hsound.exists_expand? (info.attribute? Attributes.domId)
    have hchildren : ((atlas.site mark).grow info).children.map Node.info =
        sketches.mapIdx (info.child mark) := by
      have hinfos : (atlas.site mark).childrenOf? info =
          some (sketches.mapIdx (info.child mark)) := by
        rw [Site.childrenOf?, hexpand]
        rfl
      rw [Site.grow_eq_of_some hinfos, Node.children, List.map_map]
      exact List.map_id'' (Site.info_grow _) _
    refine ⟨?_, ?_, ?_⟩
    · rw [hinfo]
      refine iff_of_false (fun hfailed => ?_) (not_not_intro hsource)
      obtain ⟨placeholder, hplaceholder, hkind, _⟩ := hfailed
      rw [hplaceholder] at hchildren
      have hmem : placeholder.info ∈ sketches.mapIdx (info.child mark) := by
        rw [← hchildren]
        exact List.mem_singleton_self _
      obtain ⟨index, hindex, hchild⟩ := List.mem_mapIdx.mp hmem
      refine hsketches.kinds.error_notMem (List.mem_map.mpr ⟨_, List.getElem_mem hindex, ?_⟩)
      rw [← hkind, ← hchild]
      rfl
    · rw [hinfo]
      exact fun hmissing => absurd hsource hmissing
    · rw [hinfo]
      exact fun _ => ⟨sketches, hexpand, hchildren⟩
  · have hnone : (atlas.site mark).childrenOf? info = none := by
      rw [Site.childrenOf?, expand?_eq_none_iff.mpr hsource, Option.map_none]
    rw [Site.grow_eq_of_none hnone]
    exact ⟨iff_of_true ⟨_, rfl, rfl, rfl⟩ hsource, fun _ => rfl,
      fun hfound => absurd hfound hsource⟩

/-- Filling in fails at a pending node exactly if it lacks attributes that its children take over. -/
theorem stops_iff {atlas : Atlas} {mark : String} {info : NodeInfo} :
    (atlas.site mark).stops info = true ↔
      info.attributes = none ∧ atlas.NeedsAttributes info.spec := by
  rw [Site.stops, Bool.and_eq_true, Option.isNone_iff_eq_none, readsAttributes_iff]

/-- Filling in a tree leaves every given node at its address, with all that it says and with the
children that were given. Every other node that gets its children has them made as its own
specification asks, whatever happens elsewhere, and filling in again changes nothing. No children
are missing any more, unless some node lacks attributes that its missing children take over. Then
filling in stops at such a node: before it no children are missing, and it and what comes after it
are as they were. -/
theorem materialize_completes (atlas : Atlas) (node : Node) :
    (∀ address given, node.subtree? address = some given →
      ∃ kept, (atlas.materialize node).subtree? address = some kept ∧ kept.info = given.info ∧
        (given.isResolved = true → kept.isResolved = true ∧
          kept.children.map Node.info = given.children.map Node.info)) ∧
    (∀ address part, (atlas.materialize node).subtree? address = some part →
      node.givenAt address = false → part.isResolved = true →
        (atlas.site node.freshMark).Completed part) ∧
    (atlas.materialize (atlas.materialize node) = atlas.materialize node ∧
      atlas.completes (atlas.materialize node) = atlas.completes node) ∧
    (atlas.completes node = true ↔ ∀ info, .pending info ∈ node.nodes →
      info.attributes = none → ¬atlas.NeedsAttributes info.spec) ∧
    (atlas.completes node = true →
      ∀ address part, (atlas.materialize node).subtree? address = some part →
        part.isResolved = true) ∧
    (atlas.completes node = false → ∃ address info,
      node.subtree? address = some (.pending info) ∧ info.attributes = none ∧
      atlas.NeedsAttributes info.spec ∧
      (∀ earlier < address, ∀ part, (atlas.materialize node).subtree? earlier = some part →
        part.isResolved = true) ∧
      ∀ later ≥ address,
        (atlas.materialize node).subtree? later = node.subtree? later) := by
  refine ⟨?_, ?_, ?_, ?_, ?_, ?_⟩
  · intro address given hgiven
    obtain ⟨kept, hkept, rfl | rfl⟩ := Site.exists_subtree?_fill hgiven
    · refine ⟨_, hkept, Site.info_fill _ given, fun hchildren => ?_⟩
      cases given with
      | pending info => simp [Node.isResolved] at hchildren
      | resolved info children =>
        rw [Site.fill, Filling.map]
        exact ⟨rfl, Site.map_info_left_fillAll _ children⟩
    · exact ⟨_, hkept, rfl, fun hchildren => ⟨hchildren, rfl⟩⟩
  · intro address part hpart hmissing hresolved
    have hgrown : part = (atlas.site node.freshMark).grow part.info := by
      rcases Site.of_subtree?_fill hpart with ⟨given, hgiven, hleft⟩ | hgrown
      · cases given with
        | resolved info children => simp [Node.givenAt, hgiven, Node.isResolved] at hmissing
        | pending info => exact Site.eq_grow_of_isResolved hleft hresolved
      · exact hgrown
    rw [hgrown]
    exact atlas.completed_grow _ _
  · have hstops : ∀ info, (atlas.site (atlas.materialize node).freshMark).stops info =
        (atlas.site node.freshMark).stops info := fun _ => rfl
    have hagain := Site.fill_left_fill hstops node
    exact ⟨congrArg Filling.left hagain, congrArg Filling.finished hagain⟩
  · rw [completes, Site.finished_fill_iff]
    refine forall₂_congr fun info _ => ?_
    rw [← Bool.not_eq_true, stops_iff, not_and]
  · exact fun hfinished address part => Site.isResolved_of_finished hfinished
  · intro hfinished
    obtain ⟨address, hstops⟩ := Site.exists_stopsAt _ node hfinished
    obtain ⟨info, hpending, hstop⟩ := hstops.stop
    obtain ⟨hattributes, hneeds⟩ := stops_iff.mp hstop
    exact ⟨address, info, hpending, hattributes, hneeds, hstops.before, hstops.after⟩

/-- A panel as it stands below the heading of the ring. -/
def danglingPanel (sourceId : String) : NodeInfo :=
  { kind := "content"
    attributes := some { group := some "ui" }
    sourceId := some sourceId
    spec := { expand := .fields, sourceId := some sourceId, path := ["d", sourceId] }
    id := sourceId
    parentId := none }

/-- A wrapper of three panels. Nobody knows its own source nor that of the first panel, the second
panel shows an entry of the ring, and the third one shows it too, with its children given: none. -/
def danglingWrapper : Node :=
  .resolved
    { danglingPanel "lost" with
      kind := "content-wrapper"
      spec := { expand := .panels, sourceId := some "lost" } }
    [.pending (danglingPanel "lost"), .pending (danglingPanel "b"),
      .resolved (danglingPanel "b") []]

/-- A panel of an unknown entry gets a placeholder, the one beside it gets what it asks for, and the
one whose children were given keeps them. -/
theorem materialize_completes_dangling : ring.completes danglingWrapper = true ∧
    ∃ failed made kept,
      (ring.materialize danglingWrapper).subtree? [0] = some failed ∧
      failed.children = [(danglingPanel "lost").placeholder danglingWrapper.freshMark] ∧
      (ring.materialize danglingWrapper).subtree? [1] = some made ∧
      (∃ sketches, (ring.site danglingWrapper.freshMark).expand? none (danglingPanel "b").spec =
        some sketches ∧ made.children.map Node.info =
          sketches.mapIdx ((danglingPanel "b").child danglingWrapper.freshMark)) ∧
      (ring.materialize danglingWrapper).subtree? [2] = some kept ∧ kept.children = [] := by
  obtain ⟨hgiven, hmissing, _, hcompletes, hresolved, _⟩ :=
    materialize_completes ring danglingWrapper
  have hattributes : ∀ info, .pending info ∈ danglingWrapper.nodes → info.attributes ≠ none := by
    intro info hinfo
    have hpanel : info = danglingPanel "lost" ∨ info = danglingPanel "b" := by
      simpa [danglingWrapper, Node.nodes, Node.nodesAll] using hinfo
    rcases hpanel with rfl | rfl <;> simp [danglingPanel]
  have hfinished := hcompletes.mpr fun info hinfo hnone => absurd hnone (hattributes info hinfo)
  obtain ⟨failed, hfailed, hfailedInfo, _⟩ := hgiven [0] (.pending (danglingPanel "lost")) rfl
  obtain ⟨made, hmade, hmadeInfo, _⟩ := hgiven [1] (.pending (danglingPanel "b")) rfl
  obtain ⟨kept, hkept, _, hchildren⟩ := hgiven [2] (.resolved (danglingPanel "b") []) rfl
  have hunknown : ¬ring.HasSource (danglingPanel "lost").spec := by
    change ¬∃ entry ∈ ring.entries, some "lost" = some entry.id
    decide
  have hknown : ring.HasSource (danglingPanel "b").spec := by
    change ∃ entry ∈ ring.entries, some "b" = some entry.id
    decide
  refine ⟨hfinished, failed, made, kept, hfailed, ?_, hmade, ?_, hkept, ?_⟩
  · have hchild := (hmissing [0] failed hfailed rfl (hresolved hfinished _ _ hfailed)).failed
    rw [hfailedInfo] at hchild
    exact hchild hunknown
  · have hchildren := (hmissing [1] made hmade rfl (hresolved hfinished _ _ hmade)).made
    rw [hmadeInfo] at hchildren
    exact hchildren hknown
  · exact List.map_eq_nil_iff.mp (hchildren rfl).2

end Atlas

end DocAtlas
