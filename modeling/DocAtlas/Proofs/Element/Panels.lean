import DocAtlas.Proofs.Atlas.SimplePath
import DocAtlas.Proofs.Element.Growth

/-!
# The panels of a heading

The panels in the tree of a heading are an overview and one panel per simple path from the heading,
in depth-first order, however often entries are shared and wherever links run in circles.
-/

namespace DocAtlas

open DocAtlas.Element

/-- The panels of a tree in pre-order: the entry that each shows and the path that led to it. -/
def Element.Node.panels (node : Node) : List (Option String × List String) :=
  (node.nodes.filter (·.info.kind = "content")).map fun panel =>
    (panel.info.sourceId, panel.info.spec.path)

/-- The nodes of a tree that hold the panels of a heading. -/
def Element.Node.wrappers (node : Node) : List Node :=
  node.nodes.filter (·.info.kind = "content-wrapper")

/-- The panels of a tree that is no panel are those of its children. -/
theorem Element.Node.panels_eq_of_ne {node : Node} (h : node.info.kind ≠ "content") :
    node.panels = node.children.flatMap panels := by
  rw [panels, nodes_eq, List.filter_cons, if_neg (by simpa using h), List.filter_flatMap,
    List.map_flatMap]
  rfl

/-- The wrappers of a tree: its root if that is one, then those of its children. -/
theorem Element.Node.wrappers_eq (node : Node) :
    node.wrappers = (if node.info.kind = "content-wrapper" then [node] else []) ++
      node.children.flatMap wrappers := by
  have hbelow : node.children.flatMap wrappers =
      (node.children.flatMap nodes).filter (·.info.kind = "content-wrapper") := by
    rw [List.filter_flatMap]
    rfl
  rw [hbelow, wrappers, nodes_eq, List.filter_cons]
  by_cases hkind : node.info.kind = "content-wrapper" <;> simp [hkind]

/-- The panel that a path of entries leads to: it shows the last entry. -/
def pathPanel (path : List Entry) : Option String × List String :=
  (path.getLast?.map Entry.id, path.map Entry.id)

/-- Selecting numbered values by the values adds up to what the selected values give. -/
theorem flatMap_filter_zipIdx {α β : Type} (values : List α) (p : α → Bool) (f : α → List β) :
    (values.zipIdx.filter fun pair => p pair.1).flatMap (fun pair => f pair.1) =
      (values.filter p).flatMap f := by
  have hfst : (values.zipIdx.filter fun pair => p pair.1).map Prod.fst = values.filter p := by
    conv_rhs => rw [← List.zipIdx_map_fst 0 values, List.filter_map]
    rfl
  rw [← hfst, List.flatMap_map]

/-- A sketch that is not part of the frame of a heading: neither the wrapper of the panels nor a
node that holds the wrapper. -/
def Element.Sketch.Inner (sketch : Sketch) : Prop :=
  sketch.kind ≠ "content-wrapper" ∧ sketch.spec.expand ≠ .rootItem ∧
    sketch.spec.expand ≠ .container

/-- With distinct identities the panels of an entry's members are those of its links. -/
theorem Atlas.panelMembers_eq {atlas : Atlas} (hdistinct : (atlas.entries.map Entry.id).Nodup)
    (entry : Entry) : atlas.panelMembers entry = entry.members atlas.get? := by
  rw [panelMembers, latest?_eq_get? hdistinct]

namespace Site

variable {site : Site}

/-- The panels of a tree that grows from a sketch. -/
def panelsOf (site : Site) (sketch : Sketch) : List (Option String × List String) :=
  ((site.outline sketch).filter (·.kind = "content")).map fun panel =>
    (panel.sourceId, panel.spec.path)

/-- The panels of a grown tree are those of its sketch. -/
theorem panels_grow (info : NodeInfo) : (site.grow info).panels = site.panelsOf info.toSketch := by
  rw [panelsOf, outline_toSketch, List.filter_map, List.map_map]
  rfl

/-- The panels of a sketch: its own if it is one, then those of its children. -/
theorem panelsOf_eq {sketch : Sketch} {sketches : List Sketch}
    (h : site.expand? (sketch.attribute? Attributes.domId) sketch.spec = some sketches) :
    site.panelsOf sketch =
      (if sketch.kind = "content" then [(sketch.sourceId, sketch.spec.path)] else []) ++
        sketches.flatMap site.panelsOf := by
  have hbelow : sketches.flatMap site.panelsOf =
      ((sketches.flatMap site.outline).filter (·.kind = "content")).map fun panel =>
        (panel.sourceId, panel.spec.path) := by
    rw [List.filter_flatMap, List.map_flatMap]
    rfl
  rw [hbelow, panelsOf, outline_eq h, List.filter_cons]
  by_cases hkind : sketch.kind = "content" <;> simp [hkind]

/-- A sketch without children that is no panel holds no panels. -/
theorem panelsOf_leaf {sketch : Sketch} (hexpand : sketch.spec.expand = .none)
    (hkind : sketch.kind ≠ "content") : site.panelsOf sketch = [] := by
  have h : site.expand? (sketch.attribute? Attributes.domId) sketch.spec = some [] := by
    rw [expand?, hexpand]
  rw [panelsOf_eq h, if_neg hkind]
  rfl

/-- Fields hold no panels. -/
theorem flatMap_panelsOf_fields (group : Option String) (fields : List Field) :
    (fields.map (fieldSketch group)).flatMap site.panelsOf = [] := by
  rw [List.flatMap_eq_nil_iff]
  intro field hfield
  obtain ⟨_, _, rfl⟩ := List.mem_map.mp hfield
  exact panelsOf_leaf rfl (by simp [fieldSketch, Element.sketch])

/-- With distinct identities the sketch of a panel that is no overview has a field per fact and a
panel per member that is not on the path. -/
theorem expand?_fields (hdistinct : (site.atlas.entries.map Entry.id).Nodup) {entry : Entry}
    (hentry : entry ∈ site.atlas.entries) (group : Option String) {path : List String}
    (hhead : path.head? ≠ some entry.id) (domId : Option String) :
    site.expand? domId { expand := .fields, sourceId := some entry.id, group, path } =
      some ((site.atlas.fieldsOf entry).map (fieldSketch group) ++
        ((entry.members site.atlas.get?).zipIdx.filter fun pair => pair.1.id ∉ path).map
          fun pair => memberSketch domId
            { expand := .fields, sourceId := some entry.id, group, path } pair.2 pair.1) := by
  have hfound := Atlas.latest?_eq_some_of_mem hdistinct hentry
  simp only [expand?, Option.bind_some, hfound, Option.map_some, memberPanels, if_neg hhead,
    Atlas.panelMembers_eq hdistinct]

/-- The panel at the end of a trail stands for the trail, and the panels below it for the ways to
continue the trail. The trail must not end where it began, as that would make an overview. -/
theorem panelsOf_content (hdistinct : (site.atlas.entries.map Entry.id).Nodup)
    {path : List Entry} {last : Entry} (htrail : site.atlas.Trail path last)
    (hhead : path.head? ≠ some last) {sketch : Sketch} {group : Option String}
    (hkind : sketch.kind = "content") (hsource : sketch.sourceId = some last.id)
    (hspec : sketch.spec =
      { expand := .fields, sourceId := some last.id, group, path := path.map Entry.id }) :
    site.panelsOf sketch = (site.atlas.extensions path last).map pathPanel := by
  induction path, last using Atlas.extensions.induct site.atlas generalizing sketch with
  | case1 path last ih =>
    have hlast := htrail.known last (List.mem_of_getLast? htrail.ends)
    have hopen : (path.map Entry.id).head? ≠ some last.id := by
      intro h
      rw [List.head?_map, Option.map_eq_some_iff] at h
      obtain ⟨first, hfirst, hid⟩ := h
      have hknown := htrail.known first (List.mem_of_head? hfirst)
      rw [Atlas.eq_of_id_eq hdistinct hknown hlast hid] at hfirst
      exact hhead hfirst
    have hexpand := expand?_fields hdistinct hlast group hopen (sketch.attribute? Attributes.domId)
    rw [← hspec] at hexpand
    have hmembers : ∀ pair ∈ (last.members site.atlas.get?).zipIdx.filter fun pair =>
          pair.1.id ∉ path.map Entry.id,
        site.panelsOf (memberSketch (sketch.attribute? Attributes.domId) sketch.spec pair.2 pair.1) =
          (site.atlas.extensions (path ++ [pair.1]) pair.1).map pathPanel := by
      intro pair hpair
      obtain ⟨member, index⟩ := pair
      obtain ⟨hzip, hnew⟩ := List.mem_filter.mp hpair
      have hmember : member ∈ (last.members site.atlas.get?).filter fun member =>
          member.id ∉ path.map Entry.id :=
        List.mem_filter.mpr ⟨List.fst_mem_of_mem_zipIdx hzip, hnew⟩
      obtain ⟨hlink, hoff⟩ := (htrail.mem_next_iff hdistinct).mp hmember
      refine ih member hmember (htrail.step hlink hoff) ?_ rfl rfl ?_
      · intro hfirst
        cases path with
        | nil => simpa using htrail.ends
        | cons first rest =>
          obtain rfl : first = member := by simpa using hfirst
          exact hoff List.mem_cons_self
      · simp [memberSketch, Element.sketch, hspec]
    have hchoices := flatMap_filter_zipIdx (last.members site.atlas.get?)
      (fun member => member.id ∉ path.map Entry.id)
      (fun member => (site.atlas.extensions (path ++ [member]) member).map pathPanel)
    rw [panelsOf_eq hexpand, if_pos hkind, List.flatMap_append, flatMap_panelsOf_fields,
      List.flatMap_map,
      List.flatMap_congr hmembers, hchoices, Atlas.extensions_eq, List.map_cons, List.map_flatMap]
    simp [pathPanel, htrail.ends, hsource, hspec]

/-- An overview holds no further panels. -/
theorem panelsOf_overview (hdistinct : (site.atlas.entries.map Entry.id).Nodup) {root : Entry}
    (hroot : root ∈ site.atlas.entries) {sketch : Sketch} {group : Option String}
    (hkind : sketch.kind = "content") (hsource : sketch.sourceId = some root.id)
    (hspec : sketch.spec =
      { expand := .fields, sourceId := some root.id, group, path := [root.id, root.id] }) :
    site.panelsOf sketch = [(some root.id, [root.id, root.id])] := by
  have hfound := Atlas.latest?_eq_some_of_mem hdistinct hroot
  have hexpand : site.expand? (sketch.attribute? Attributes.domId) sketch.spec =
      some ((site.atlas.fieldsOf root).map (fieldSketch group)) := by
    simp [hspec, expand?, hfound, memberPanels]
  rw [panelsOf_eq hexpand, if_pos hkind, flatMap_panelsOf_fields, hsource, hspec]
  rfl

/-- With distinct identities a heading has a tab of its own and one per member. -/
theorem exists_tabsOf? (hdistinct : (site.atlas.entries.map Entry.id).Nodup) {root : Entry}
    (hroot : root ∈ site.atlas.entries) {slug : String} (hslug : site.slug? root.id = some slug) :
    ∃ (overview : Tab) (tab : ℕ → Entry → Tab), overview.entry = root ∧
      (∀ index member, (tab index member).entry = member) ∧
      site.tabsOf? (some root.id) = some (overview :: (root.members site.atlas.get?).mapIdx tab) := by
  have hfound := Atlas.latest?_eq_some_of_mem hdistinct hroot
  refine ⟨{ entry := root, label := "Overview", domId := slug ++ "-overview" },
    fun index member =>
      { entry := member, label := member.title, domId := slug ++ "-tab-" ++ (index + 1).repr },
    rfl, fun _ _ => rfl, ?_⟩
  simp [tabsOf?, hfound, hslug, Atlas.panelMembers_eq hdistinct]

/-- The panels of a heading that is no member of itself: the overview, then one per simple path to
another entry. -/
theorem panelsOf_wrapper (hdistinct : (site.atlas.entries.map Entry.id).Nodup) {root : Entry}
    (hroot : root ∈ site.atlas.entries) (hself : root.id ∉ root.children.map Edge.id)
    {slug : String} (hslug : site.slug? root.id = some slug) {sketch : Sketch}
    {group : Option String} (hkind : sketch.kind ≠ "content")
    (hspec : sketch.spec = { expand := .panels, sourceId := some root.id, group }) :
    site.panelsOf sketch =
      (some root.id, [root.id, root.id]) ::
        (site.atlas.extensions [root] root).tail.map pathPanel := by
  obtain ⟨overview, tab, hoverview, htab, htabs⟩ := exists_tabsOf? hdistinct hroot hslug
  have hexpand : site.expand? (sketch.attribute? Attributes.domId) sketch.spec = some
      ((overview :: (root.members site.atlas.get?).mapIdx tab).map (panelSketch sketch.spec)) := by
    rw [hspec]
    simp only [expand?, htabs, Option.map_some]
  have hother : ∀ member ∈ root.members site.atlas.get?,
      site.atlas.Links root member ∧ member.id ≠ root.id := by
    intro member hmember
    have hlink := (Atlas.mem_members_iff hdistinct).mp hmember
    exact ⟨hlink, fun hid => hself (hid ▸ hlink.2)⟩
  have hfirst : site.panelsOf (panelSketch sketch.spec overview) =
      [(some root.id, [root.id, root.id])] := by
    have hpath : (panelSketch sketch.spec overview).spec =
        { expand := .fields, sourceId := some root.id, group, path := [root.id, root.id] } := by
      simp [panelSketch, Element.sketch, hspec, hoverview]
    refine panelsOf_overview hdistinct hroot rfl ?_ hpath
    simp [panelSketch, Element.sketch, hoverview]
  have hpanel (index : ℕ) : ∀ member ∈ root.members site.atlas.get?,
      site.panelsOf (panelSketch sketch.spec (tab index member)) =
        (site.atlas.extensions [root, member] member).map pathPanel := by
    intro member hmember
    obtain ⟨hlink, hid⟩ := hother member hmember
    have hne : root ≠ member := fun h => hid (by rw [h])
    have htrail := (Atlas.Trail.single hroot).step hlink (by simpa using hne.symm)
    have hpath : (panelSketch sketch.spec (tab index member)).spec =
        { expand := .fields, sourceId := some member.id, group,
          path := ([root] ++ [member]).map Entry.id } := by
      simp [panelSketch, Element.sketch, hspec, htab]
    refine panelsOf_content hdistinct htrail (by simpa using hne) rfl ?_ hpath
    simp [panelSketch, Element.sketch, htab]
  have hkeep : ((root.members site.atlas.get?).filter fun member =>
      member.id ∉ [root].map Entry.id) = root.members site.atlas.get? := by
    rw [List.filter_eq_self]
    intro member hmember
    simpa using (hother member hmember).2
  rw [panelsOf_eq hexpand, if_neg hkind, List.map_cons, List.flatMap_cons, hfirst,
    List.flatMap_map, Atlas.extensions_eq, hkeep, List.tail_cons, List.map_flatMap]
  exact congrArg (List.cons _) (flatMap_mapIdx hpanel)

/-- Only the two outer nodes of the frame have children that belong to the frame. -/
theorem inner_of_expand? {domId : Option String} {spec : Spec} {sketches : List Sketch}
    (hroot : spec.expand ≠ .rootItem) (hcontainer : spec.expand ≠ .container)
    (h : site.expand? domId spec = some sketches) {s : Sketch} (hs : s ∈ sketches) : s.Inner := by
  obtain ⟨expand, sourceId, group, path⟩ := spec
  cases expand with
  | none =>
    obtain rfl := Option.some.inj h
    simp at hs
  | rootItem => exact absurd rfl hroot
  | container => exact absurd rfl hcontainer
  | navLinks =>
    obtain rfl := Option.some.inj h
    obtain ⟨heading, _, rfl⟩ := List.mem_map.mp hs
    simp [Sketch.Inner, navSublink, Element.sketch]
  | tabs =>
    obtain ⟨tabs, _, rfl⟩ := Option.map_eq_some_iff.mp h
    obtain ⟨tab, _, rfl⟩ := List.mem_map.mp hs
    simp [Sketch.Inner, tabSketch, Element.sketch]
  | panels =>
    obtain ⟨tabs, _, rfl⟩ := Option.map_eq_some_iff.mp h
    obtain ⟨tab, _, rfl⟩ := List.mem_map.mp hs
    simp [Sketch.Inner, panelSketch, Element.sketch]
  | fields =>
    obtain ⟨entry, _, rfl⟩ := Option.map_eq_some_iff.mp h
    rcases List.mem_append.mp hs with hs | hs
    · obtain ⟨field, _, rfl⟩ := List.mem_map.mp hs
      simp [Sketch.Inner, fieldSketch, Element.sketch]
    · unfold memberPanels at hs
      split at hs
      · simp at hs
      · obtain ⟨⟨member, index⟩, _, rfl⟩ := List.mem_map.mp hs
        simp [Sketch.Inner, memberSketch, Element.sketch]

/-- Everything below a node that is not one of the two outer nodes is outside the frame. -/
theorem inner_of_mem_below_grow {info : NodeInfo} (hroot : info.spec.expand ≠ .rootItem)
    (hcontainer : info.spec.expand ≠ .container) :
    ∀ node ∈ (site.grow info).children.flatMap Node.nodes, node.info.Inner := by
  have hchildren {parent : NodeInfo} {infos : List NodeInfo}
      (hroot : parent.spec.expand ≠ .rootItem) (hcontainer : parent.spec.expand ≠ .container)
      (h : site.childrenOf? parent = some infos) : ∀ child ∈ infos, child.Inner := by
    intro child hchild
    obtain ⟨sketches, hsketches, rfl⟩ := Option.map_eq_some_iff.mp h
    obtain ⟨index, hindex, rfl⟩ := List.mem_mapIdx.mp hchild
    exact inner_of_expand? hroot hcontainer hsketches (List.getElem_mem hindex)
  have hplaceholder (parent : NodeInfo) : (parent.placeholder site.mark).info.Inner := by
    simp [NodeInfo.placeholder, Node.info, NodeInfo.child, Sketch.Inner, Element.sketch]
  intro node hnode
  cases h : site.childrenOf? info with
  | none =>
    rw [grow_eq_of_none h, Node.children, List.flatMap_singleton] at hnode
    obtain rfl := List.mem_singleton.mp hnode
    exact hplaceholder info
  | some infos =>
    rw [grow_eq_of_some h, Node.children, List.flatMap_map, List.mem_flatMap] at hnode
    obtain ⟨child, hchild, hnode⟩ := hnode
    exact forall_mem_nodes_grow (fun _ _ hinner h => hchildren hinner.2.1 hinner.2.2 h)
      (fun parent _ _ => hplaceholder parent) (hchildren hroot hcontainer h child hchild) node hnode

/-- A tree that is not rooted at one of the two outer nodes holds no wrapper but its root. -/
theorem wrappers_grow {info : NodeInfo} (hroot : info.spec.expand ≠ .rootItem)
    (hcontainer : info.spec.expand ≠ .container) :
    (site.grow info).wrappers =
      if info.kind = "content-wrapper" then [site.grow info] else [] := by
  have hbelow : (site.grow info).children.flatMap Node.wrappers = [] := by
    rw [List.flatMap_eq_nil_iff]
    intro child hchild
    rw [Node.wrappers, List.filter_eq_nil_iff]
    intro node hnode
    have hmem := List.mem_flatMap.mpr ⟨child, hchild, hnode⟩
    simpa using (inner_of_mem_below_grow hroot hcontainer node hmem).1
  rw [Node.wrappers_eq, hbelow, List.append_nil, info_grow]

/-- The frame of a heading: a navigation link, and a container with the tab strip and the wrapper of
the panels. -/
theorem exists_grow_rootInfo (hdistinct : (site.atlas.entries.map Entry.id).Nodup) {root : Entry}
    (hroot : root ∈ site.atlas.entries) {slug : String} (hslug : site.slug? root.id = some slug)
    (index : ℕ) :
    ∃ link container strip wrapper : NodeInfo,
      site.grow (site.rootInfo index root) = .resolved (site.rootInfo index root)
        [site.grow link, .resolved container [site.grow strip, site.grow wrapper]] ∧
      link.Inner ∧ container.kind = "container" ∧ strip.Inner ∧
      wrapper.kind = "content-wrapper" ∧
      wrapper.spec =
        { expand := .panels, sourceId := some root.id, group := some root.group } := by
  have hfound := Atlas.latest?_eq_some_of_mem hdistinct hroot
  obtain ⟨link, container, hchildren, hlink, hcontainer, hspec⟩ :
      ∃ link container, site.childrenOf? (site.rootInfo index root) = some [link, container] ∧
        link.Inner ∧ container.kind = "container" ∧ container.spec =
          { expand := .container, sourceId := some root.id, group := some root.group } := by
    simp only [childrenOf?, rootInfo, Element.sketch, expand?, rootChildren?, Option.bind_some,
      hfound, hslug, Option.bind_eq_bind, Option.map_some]
    exact ⟨_, _, rfl, by simp [Sketch.Inner, NodeInfo.child], rfl, rfl⟩
  obtain ⟨strip, wrapper, hbelow, hstrip, hwrapper, hpanels⟩ :
      ∃ strip wrapper, site.childrenOf? container = some [strip, wrapper] ∧
        strip.Inner ∧ wrapper.kind = "content-wrapper" ∧ wrapper.spec =
          { expand := .panels, sourceId := some root.id, group := some root.group } := by
    simp only [childrenOf?, hspec, expand?, containerChildren?, Option.bind_some, hslug,
      Option.bind_eq_bind, Option.map_some]
    exact ⟨_, _, rfl, by simp [Sketch.Inner, NodeInfo.child, Element.sketch], rfl, rfl⟩
  refine ⟨link, container, strip, wrapper, ?_, hlink, hcontainer, hstrip, hwrapper, hpanels⟩
  rw [grow_eq_of_some hchildren, List.map_cons, List.map_cons, List.map_nil,
    grow_eq_of_some hbelow]
  rfl

/-- The tree of a heading has one wrapper, with the overview and the panels of the paths below. -/
theorem exists_wrappers_rootInfo (hdistinct : (site.atlas.entries.map Entry.id).Nodup)
    {root : Entry} (hroot : root ∈ site.atlas.entries)
    (hself : root.id ∉ root.children.map Edge.id) {slug : String}
    (hslug : site.slug? root.id = some slug) (index : ℕ) :
    ∃ wrapper, (site.grow (site.rootInfo index root)).wrappers = [wrapper] ∧
      wrapper.children.flatMap Node.panels = (some root.id, [root.id, root.id]) ::
        (site.atlas.extensions [root] root).tail.map pathPanel := by
  obtain ⟨link, container, strip, wrapper, hgrow, hlink, hcontainer, hstrip, hwrapper, hspec⟩ :=
    exists_grow_rootInfo hdistinct hroot hslug index
  refine ⟨site.grow wrapper, ?_, ?_⟩
  · have hlinks : (site.grow link).wrappers = [] := by
      rw [wrappers_grow hlink.2.1 hlink.2.2, if_neg hlink.1]
    have hstrips : (site.grow strip).wrappers = [] := by
      rw [wrappers_grow hstrip.2.1 hstrip.2.2, if_neg hstrip.1]
    have hwrappers : (site.grow wrapper).wrappers = [site.grow wrapper] := by
      rw [wrappers_grow (by simp [hspec]) (by simp [hspec]), if_pos hwrapper]
    have hbelow : (Node.resolved container [site.grow strip, site.grow wrapper]).wrappers =
        [site.grow wrapper] := by
      rw [Node.wrappers_eq]
      simp [Node.info, Node.children, hcontainer, hstrips, hwrappers]
    rw [hgrow, Node.wrappers_eq]
    simp [Node.info, Node.children, rootInfo, Element.sketch, hlinks, hbelow]
  · have hkind : wrapper.kind ≠ "content" := by simp [hwrapper]
    rw [← panelsOf_wrapper hdistinct hroot hself hslug hkind hspec, ← panels_grow,
      Node.panels_eq_of_ne (by rwa [info_grow])]

end Site

/-- Slugs are assigned to the headings in order. -/
theorem map_fst_assignSlugs (taken : List String) (headings : List Entry) :
    (assignSlugs taken headings).map Prod.fst = headings.map Entry.id := by
  induction headings generalizing taken with
  | nil => rfl
  | cons heading rest ih =>
    rw [assignSlugs]
    exact congrArg (List.cons heading.id) (ih _)

namespace Atlas

/-- Every heading has a slug. -/
theorem exists_slug? {atlas : Atlas} {heading : Entry} (hheading : heading ∈ atlas.headings)
    (mark : String) : ∃ slug, (atlas.site mark).slug? heading.id = some slug := by
  have hid : heading.id ∈ (assignSlugs [] atlas.headings).map Prod.fst := by
    rw [map_fst_assignSlugs]
    exact List.mem_map_of_mem hheading
  obtain ⟨pair, hpair, hfst⟩ := List.mem_map.mp hid
  refine Option.isSome_iff_exists.mp ?_
  simp only [Site.slug?, site, slugs, SlugTable.get?, List.findRev?_eq_find?_reverse,
    Option.isSome_map, List.find?_isSome]
  exact ⟨pair, List.mem_reverse.mpr hpair, by simpa using hfst⟩

/-- Below the one wrapper in the tree of a heading that is no member of itself stand an overview and
exactly one panel for each simple path from the heading to another entry, depth first. -/
theorem forest_panels {atlas : Atlas} (hdistinct : (atlas.entries.map Entry.id).Nodup)
    {index : ℕ} {root : Entry} (hroot : atlas.headings[index]? = some root)
    (hself : root.id ∉ root.children.map Edge.id) :
    ∃ (tree wrapper : Node) (paths : List (List Entry)),
      atlas.forest[index]? = some tree ∧ tree.wrappers = [wrapper] ∧
      wrapper.children.flatMap Node.panels =
        (some root.id, [root.id, root.id]) :: paths.map pathPanel ∧
      (∀ path, path ∈ paths ↔ atlas.SimplePath root path ∧ path ≠ [root]) ∧
      paths.Nodup ∧ paths.Pairwise Precedes := by
  have hheading := List.mem_of_getElem? hroot
  have hentry := mem_of_mem_headings hheading
  obtain ⟨slug, hslug⟩ := exists_slug? hheading ""
  have hsite : ((atlas.site "").atlas.entries.map Entry.id).Nodup := hdistinct
  obtain ⟨wrapper, hwrapper, hpanels⟩ :=
    Site.exists_wrappers_rootInfo hsite hentry hself hslug index
  have hordered := pairwise_extensions hdistinct (.single hentry)
  obtain ⟨rest, hrest⟩ : ∃ rest, atlas.extensions [root] root = [root] :: rest :=
    ⟨_, extensions_eq [root] root⟩
  rw [hrest, List.pairwise_cons] at hordered
  refine ⟨_, wrapper, rest, ?_, hwrapper, ?_, ?_, ?_, hordered.2⟩
  · rw [forest, Site.forest, List.getElem?_map, List.getElem?_mapIdx]
    simp [site, hroot]
  · rw [hpanels]
    exact congrArg (fun paths => _ :: List.map pathPanel (List.tail paths)) hrest
  · intro path
    rw [← mem_extensions_root_iff hdistinct hentry, hrest, List.mem_cons]
    constructor
    · intro hpath
      exact ⟨Or.inr hpath, (hordered.1 path hpath).ne.symm⟩
    · intro h
      rcases h with ⟨rfl | hpath, hne⟩
      · exact absurd rfl hne
      · exact hpath
  · exact hordered.2.imp Precedes.ne

/-- The panels of a heading whose members run in a circle. -/
theorem forest_panels_ring :
    (ring.entries.map Entry.id).Nodup ∧
      ∃ (tree wrapper : Node) (paths : List (List Entry)),
        ring.forest[0]? = some tree ∧ tree.wrappers = [wrapper] ∧
        wrapper.children.flatMap Node.panels = (some "a", ["a", "a"]) :: paths.map pathPanel ∧
        (∀ path, path ∈ paths ↔
          ring.SimplePath (.declaring "a" ["ui"] ["b", "c", "b"]) path ∧
            path ≠ [.declaring "a" ["ui"] ["b", "c", "b"]]) ∧
        paths.Nodup ∧ paths.Pairwise Precedes := by
  have hdistinct : (ring.entries.map Entry.id).Nodup := by decide
  have hroot : ring.headings[0]? = some (.declaring "a" ["ui"] ["b", "c", "b"]) := rfl
  exact ⟨hdistinct, forest_panels hdistinct hroot (by decide)⟩

end Atlas

end DocAtlas
