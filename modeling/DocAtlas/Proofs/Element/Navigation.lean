import DocAtlas.Proofs.Element.DomIds

/-!
# Navigation

The script of a page finds its way by comparing identifiers: a navigation link shows the container
whose identifier is its own with another word in front, and a tab shows the panel that has its own
identifier. In the forest of an atlas each comparison is met by one node. The container of a link
and the panel of a tab carry the right identifier, as link and container are made from one slug and
tab and panel from one list of tabs. No other candidate carries it, as no two nodes of a kind share
an identifier.
-/

namespace DocAtlas

open DocAtlas.Element

/-- If no key occurs twice, one value is found by its key. -/
theorem filter_eq_singleton {α β : Type} [DecidableEq β] {key? : α → Option β} {values : List α}
    (hnodup : (values.filterMap key?).Nodup) {value : α} (hvalue : value ∈ values) {key : β}
    (hkey : key? value = some key) : values.filter (key? · = some key) = [value] := by
  induction values with
  | nil => exact absurd hvalue List.not_mem_nil
  | cons first rest ih =>
    by_cases hfirst : key? first = some key
    · rw [List.filterMap_cons_some hfirst, List.nodup_cons] at hnodup
      have habsent : ∀ other ∈ rest, key? other ≠ some key :=
        fun other hother heq => hnodup.1 (List.mem_filterMap.mpr ⟨other, hother, heq⟩)
      have hnone : rest.filter (key? · = some key) = [] := by
        rw [List.filter_eq_nil_iff]
        intro other hother
        simpa using habsent other hother
      obtain rfl : value = first :=
        (List.mem_cons.mp hvalue).resolve_right fun hrest => habsent value hrest hkey
      rw [List.filter_cons_of_pos (by simpa using hfirst), hnone]
    · have hrest : value ∈ rest :=
        (List.mem_cons.mp hvalue).resolve_left fun heq => hfirst (heq ▸ hkey)
      have htail : (rest.filterMap key?).Nodup :=
        hnodup.sublist ((List.sublist_cons_self first rest).filterMap key?)
      rw [List.filter_cons_of_neg (by simpa using hfirst), ih htail hrest]

namespace Element

/-- The identifier of a node in the page. -/
def Node.domId? (node : Node) : Option String :=
  node.info.attribute? Attributes.domId

/-- The nodes that have a role. -/
def withRole (role : String) (nodes : List Node) : List Node :=
  nodes.filter (·.info.attribute? Attributes.role = some role)

/-- The identifier that a navigation link looks for: its own with `container-` for the leading
`nav-`. -/
def Node.target? (link : Node) : Option String :=
  link.domId?.map fun id =>
    match Text.stripPrefix? "nav-".toList id.toList with
    | some slug => "container-" ++ String.ofList slug
    | none => id

/-- The containers of a forest that a navigation link shows. -/
def shownContainers (forest : List Node) (link : Node) : List Node :=
  (withRole "container" (Node.nodesAll forest)).filter (·.domId? = link.target?)

/-- The panels of a container that its tabs show and hide: those right below a wrapper. -/
def Node.switchedPanels (container : Node) : List Node :=
  (withRole "content-wrapper" container.nodes).flatMap fun wrapper =>
    withRole "content" wrapper.children

/-- The panels of a container that a tab shows. -/
def Node.shownPanels (container tab : Node) : List Node :=
  container.switchedPanels.filter (·.domId? = tab.domId?)

/-- What ties a tab to its panel: the identifier in the page and the entry that is shown. -/
def Sketch.tie (sketch : Sketch) : Option String × Option String :=
  (sketch.attribute? Attributes.domId, sketch.sourceId)

/-- A root whose navigation link shows its container and no other one of the forest, and in whose
container every tab shows its panel and no other one. -/
structure Node.Navigable (forest : List Node) (root link container strip wrapper : Node) :
    Prop where
  rootChildren : root.children = [link, container]
  containerChildren : container.children = [strip, wrapper]
  kinds : [link, container, strip, wrapper].map (·.info.kind) =
    ["nav-link", "container", "tab-strip", "content-wrapper"]
  domIds : ∃ slug, link.domId? = some ("nav-" ++ slug) ∧
    container.domId? = some ("container-" ++ slug)
  shownContainers : shownContainers forest link = [container]
  tabs : ∀ tab ∈ strip.children, tab.info.kind = "tab"
  panels : ∀ panel ∈ wrapper.children, panel.info.kind = "content"
  switchedPanels : container.switchedPanels = wrapper.children
  ties : strip.children.map (·.info.tie) = wrapper.children.map (·.info.tie)
  shownPanels : ∀ (position : ℕ) (tab : Node), strip.children[position]? = some tab →
    tab.domId?.isSome ∧ ∃ panel, wrapper.children[position]? = some panel ∧
      container.shownPanels tab = [panel]

/-- The kind, the role and the expansion of a node. -/
def Sketch.shape? (sketch : Sketch) : Option (String × String × Expand) :=
  (sketch.attribute? Attributes.role).map fun role => (sketch.kind, role, sketch.spec.expand)

/-- The kinds of nodes, each with its role and its expansion. -/
def shapes : List (String × String × Expand) :=
  [("root-item", "root-item", .rootItem),
   ("nav-link", "nav-header-link", .navLinks),
   ("nav-sublink", "nav-header-sublink", .none),
   ("container", "container", .container),
   ("tab-strip", "tab-strip-nav", .tabs),
   ("tab", "tab-strip-nav-link", .none),
   ("content-wrapper", "content-wrapper", .panels),
   ("content", "content", .fields),
   ("field", "content-field", .none),
   ("error", "error", .none)]

end Element

/-- A node is found by its kind and its identifier. -/
theorem Element.Sketch.key?_eq_some_iff {sketch : Sketch} {kind id : String} :
    sketch.key? = some (kind, id) ↔
      sketch.kind = kind ∧ sketch.attribute? Attributes.domId = some id := by
  rw [key?]
  cases sketch.attribute? Attributes.domId <;> simp

namespace Site

variable {site : Site}

/-- Every sketch that is made has one of the shapes. -/
theorem exists_shape_of_expand? {domId : Option String} {spec : Spec} {sketches : List Sketch}
    (h : site.expand? domId spec = some sketches) {s : Sketch} (hs : s ∈ sketches) :
    ∃ shape ∈ shapes, s.shape? = some shape := by
  obtain ⟨expand, sourceId, group, path⟩ := spec
  cases expand with
  | none =>
    obtain rfl := Option.some.inj h
    exact absurd hs List.not_mem_nil
  | rootItem =>
    simp only [expand?, rootChildren?, Option.bind_eq_bind, Option.bind_eq_some_iff,
      Option.some.injEq] at h
    obtain ⟨entry, _, slug, _, rfl⟩ := h
    rcases List.mem_pair.mp hs with rfl | rfl
    · exact ⟨("nav-link", "nav-header-link", .navLinks), by decide, rfl⟩
    · exact ⟨("container", "container", .container), by decide, rfl⟩
  | navLinks =>
    obtain rfl := Option.some.inj h
    obtain ⟨heading, _, rfl⟩ := List.mem_map.mp hs
    exact ⟨("nav-sublink", "nav-header-sublink", .none), by decide, rfl⟩
  | container =>
    simp only [expand?, containerChildren?, Option.bind_eq_bind, Option.bind_eq_some_iff,
      Option.some.injEq] at h
    obtain ⟨slug, _, rfl⟩ := h
    rcases List.mem_pair.mp hs with rfl | rfl
    · exact ⟨("tab-strip", "tab-strip-nav", .tabs), by decide, rfl⟩
    · exact ⟨("content-wrapper", "content-wrapper", .panels), by decide, rfl⟩
  | tabs =>
    obtain ⟨tabs, _, rfl⟩ := Option.map_eq_some_iff.mp h
    obtain ⟨tab, _, rfl⟩ := List.mem_map.mp hs
    exact ⟨("tab", "tab-strip-nav-link", .none), by decide, rfl⟩
  | panels =>
    obtain ⟨tabs, _, rfl⟩ := Option.map_eq_some_iff.mp h
    obtain ⟨tab, _, rfl⟩ := List.mem_map.mp hs
    exact ⟨("content", "content", .fields), by decide, rfl⟩
  | fields =>
    obtain ⟨entry, _, rfl⟩ := Option.map_eq_some_iff.mp h
    rcases List.mem_append.mp hs with hs | hs
    · obtain ⟨field, _, rfl⟩ := List.mem_map.mp hs
      exact ⟨("field", "content-field", .none), by decide, rfl⟩
    · unfold memberPanels at hs
      split at hs
      · exact absurd hs List.not_mem_nil
      · obtain ⟨⟨member, index⟩, _, rfl⟩ := List.mem_map.mp hs
        exact ⟨("content", "content", .fields), by decide, rfl⟩

/-- What follows from the sketches of a grown tree's children follows from those that its node
stands for. -/
theorem map_children_grow {info : NodeInfo} {sketches : List Sketch}
    (h : site.expand? (info.attribute? Attributes.domId) info.spec = some sketches) {α : Type}
    (f : Sketch → α) :
    (site.grow info).children.map (fun child => f child.info.toSketch) = sketches.map f := by
  obtain ⟨infos, hchildren, rfl⟩ := children_grow h
  rw [hchildren, List.map_map, List.map_map]
  refine List.map_congr_left fun child _ => ?_
  exact congrArg (fun info => f info.toSketch) (info_grow site child)

/-- What holds of the sketches that a node stands for holds of the children of its grown tree. -/
theorem forall_mem_children_grow {info : NodeInfo} {sketches : List Sketch}
    (h : site.expand? (info.attribute? Attributes.domId) info.spec = some sketches)
    {P : Sketch → Prop} (hsketches : ∀ sketch ∈ sketches, P sketch) :
    ∀ child ∈ (site.grow info).children, P child.info.toSketch := by
  intro child hchild
  apply hsketches
  have hmap := map_children_grow h id
  rw [List.map_id] at hmap
  rw [← hmap]
  exact List.mem_map_of_mem (f := fun child : Node => child.info.toSketch) hchild

/-- No node of a tree outside the frame of a heading is expanded like a container. -/
theorem expand_ne_container_of_mem_nodes_grow {info : NodeInfo} (hinfo : info.Inner) :
    ∀ node ∈ (site.grow info).nodes, node.info.spec.expand ≠ .container := by
  intro node hnode
  rw [Node.nodes_eq, List.mem_cons] at hnode
  rcases hnode with rfl | hnode
  · rw [info_grow]
    exact hinfo.2.2
  · exact (inner_of_mem_below_grow hinfo.2.1 hinfo.2.2 node hnode).2.2

/-- The frame of a heading: the nodes of which it consists, with the sketches that they are made
from. -/
structure Frame (site : Site) (root : NodeInfo) (heading : Entry) (slug : String)
    (link container strip wrapper : NodeInfo) : Prop where
  rootChildren : (site.grow root).children = [site.grow link, site.grow container]
  containerChildren : (site.grow container).children = [site.grow strip, site.grow wrapper]
  link_eq : link.toSketch = linkSketch heading slug
  container_eq : container.toSketch = containerSketch heading slug
  strip_eq : strip.toSketch = stripSketch heading slug
  wrapper_eq : wrapper.toSketch = wrapperSketch heading slug

section

variable (hdistinct : (site.atlas.entries.map Entry.id).Nodup) {heading : Entry}
  (hheading : heading ∈ site.atlas.entries) {slug : String}
  (hslug : site.slug? heading.id = some slug)

include hdistinct hheading hslug in
/-- With distinct identities every heading has a frame. -/
theorem exists_frame (index : ℕ) : ∃ link container strip wrapper,
    site.Frame (site.rootInfo index heading) heading slug link container strip wrapper := by
  obtain ⟨infos, hchildren, hinfos⟩ :=
    children_grow (expand?_rootInfo hdistinct hheading hslug index
      ((site.rootInfo index heading).attribute? Attributes.domId))
  obtain ⟨link, rest, rfl, hlink, hrest⟩ := List.map_eq_cons_iff.mp hinfos
  obtain ⟨container, rest, rfl, hcontainer, hrest⟩ := List.map_eq_cons_iff.mp hrest
  obtain rfl := List.map_eq_nil_iff.mp hrest
  have hexpand := expand?_containerSketch hslug (container.attribute? Attributes.domId)
  rw [← hcontainer] at hexpand
  obtain ⟨infos, hbelow, hinfos⟩ := children_grow hexpand
  obtain ⟨strip, rest, rfl, hstrip, hrest⟩ := List.map_eq_cons_iff.mp hinfos
  obtain ⟨wrapper, rest, rfl, hwrapper, hrest⟩ := List.map_eq_cons_iff.mp hrest
  obtain rfl := List.map_eq_nil_iff.mp hrest
  exact ⟨link, container, strip, wrapper, hchildren, hbelow, hlink, hcontainer, hstrip, hwrapper⟩

end

namespace Frame

variable {root link container strip wrapper : NodeInfo} {heading : Entry} {slug : String}
  (frame : site.Frame root heading slug link container strip wrapper)

include frame

/-- The only wrapper of a heading's container is the wrapper of its frame. -/
theorem wrappers_container : (site.grow container).wrappers = [site.grow wrapper] := by
  have hkind : (site.grow container).info.kind ≠ "content-wrapper" := by
    rw [info_grow, frame.container_eq]
    simp [containerSketch, Element.sketch]
  have hstrip : (site.grow strip).wrappers = [] := by
    rw [wrappers_grow] <;> simp [frame.strip_eq, stripSketch, Element.sketch]
  have hwrapper : (site.grow wrapper).wrappers = [site.grow wrapper] := by
    rw [wrappers_grow] <;> simp [frame.wrapper_eq, wrapperSketch, Element.sketch]
  rw [Node.wrappers_eq, if_neg hkind, frame.containerChildren]
  simp [hstrip, hwrapper]

/-- The only node in the tree of a heading that is expanded like a container is the container of its
frame. -/
theorem eq_container_of_mem_nodes (hroot : root.spec.expand ≠ .container) {node : Node}
    (hnode : node ∈ (site.grow root).nodes) (hexpand : node.info.spec.expand = .container) :
    node = site.grow container := by
  have hinner {info : NodeInfo} (hinfo : info.Inner) : node ∉ (site.grow info).nodes :=
    fun hmem => expand_ne_container_of_mem_nodes_grow hinfo node hmem hexpand
  have hlink : link.Inner := by
    rw [Sketch.Inner, frame.link_eq]
    simp [linkSketch, Element.sketch]
  have hstrip : strip.Inner := by
    rw [Sketch.Inner, frame.strip_eq]
    simp [stripSketch, Element.sketch]
  have hwrapper : node ∉ (site.grow wrapper).nodes := by
    intro hmem
    rw [Node.nodes_eq, List.mem_cons] at hmem
    rcases hmem with rfl | hmem
    · simp [info_grow, frame.wrapper_eq, wrapperSketch, Element.sketch] at hexpand
    · refine (inner_of_mem_below_grow ?_ ?_ node hmem).2.2 hexpand <;>
        simp [frame.wrapper_eq, wrapperSketch, Element.sketch]
  rw [Node.nodes_eq, List.mem_cons, frame.rootChildren] at hnode
  rcases hnode with rfl | hnode
  · rw [info_grow] at hexpand
    exact absurd hexpand hroot
  · simp only [List.flatMap_cons, List.flatMap_nil, List.append_nil, List.mem_append] at hnode
    have hcontainer := hnode.resolve_left (hinner hlink)
    rw [Node.nodes_eq, List.mem_cons, frame.containerChildren] at hcontainer
    refine hcontainer.resolve_right fun hbelow => ?_
    simp only [List.flatMap_cons, List.flatMap_nil, List.append_nil, List.mem_append] at hbelow
    exact hbelow.elim (hinner hstrip) hwrapper

end Frame

end Site

namespace Atlas

variable {atlas : Atlas}

/-- Every node of the forest has one of the shapes. -/
theorem exists_shape_of_mem_forest {node : Node} (hnode : node ∈ Node.nodesAll atlas.forest) :
    ∃ shape ∈ shapes, node.info.shape? = some shape := by
  rw [Node.nodesAll_eq_flatMap, forest, Site.forest, List.flatMap_map, List.mem_flatMap] at hnode
  obtain ⟨root, hroot, hnode⟩ := hnode
  obtain ⟨index, _, rfl⟩ := List.mem_mapIdx.mp hroot
  refine Site.forall_mem_nodes_grow
    (P := fun info => ∃ shape ∈ shapes, info.shape? = some shape) ?_ ?_ ?_ node hnode
  · intro info infos _ hchildren child hchild
    obtain ⟨sketches, hsketches, rfl⟩ := Option.map_eq_some_iff.mp hchildren
    obtain ⟨position, hposition, rfl⟩ := List.mem_mapIdx.mp hchild
    exact Site.exists_shape_of_expand? hsketches (List.getElem_mem hposition)
  · intro info _ _
    exact ⟨("error", "error", .none), by decide, rfl⟩
  · exact ⟨("root-item", "root-item", .rootItem), by decide, rfl⟩

/-- In the forest a role is that of one kind. -/
theorem role_eq_iff_kind_eq {node : Node} (hnode : node ∈ Node.nodesAll atlas.forest)
    (shape : String × String × Expand) (hshape : shape ∈ shapes) :
    node.info.attribute? Attributes.role = some shape.2.1 ↔ node.info.kind = shape.1 := by
  obtain ⟨own, hown, heq⟩ := exists_shape_of_mem_forest hnode
  obtain ⟨role, hrole, rfl⟩ := Option.map_eq_some_iff.mp heq
  have hpairs : ∀ own ∈ shapes, ∀ shape ∈ shapes, own.2.1 = shape.2.1 ↔ own.1 = shape.1 := by
    decide
  rw [hrole, Option.some.injEq]
  exact hpairs _ hown shape hshape

/-- Only containers are expanded like containers. -/
theorem expand_eq_of_kind_eq_container {node : Node} (hnode : node ∈ Node.nodesAll atlas.forest)
    (hkind : node.info.kind = "container") : node.info.spec.expand = .container := by
  obtain ⟨own, hown, heq⟩ := exists_shape_of_mem_forest hnode
  obtain ⟨role, _, rfl⟩ := Option.map_eq_some_iff.mp heq
  have hshapes : ∀ own ∈ shapes, own.1 = "container" → own.2.2 = .container := by decide
  exact hshapes _ hown hkind

/-- What stands below a child of a root stands in the forest. -/
theorem mem_nodesAll_of_mem_child {forest : List Node} {root child node : Node}
    (hroot : root ∈ forest) (hchild : child ∈ root.children) (hnode : node ∈ child.nodes) :
    node ∈ Node.nodesAll forest := by
  rw [Node.nodesAll_eq_flatMap, List.mem_flatMap]
  refine ⟨root, hroot, ?_⟩
  rw [Node.nodes_eq]
  exact List.mem_cons_of_mem _ (List.mem_flatMap.mpr ⟨child, hchild, hnode⟩)

/-- With distinct identities the trees of the forest have the frames of the headings. -/
theorem exists_frame_of_mem_forest (hdistinct : (atlas.entries.map Entry.id).Nodup) {root : Node}
    (hroot : root ∈ atlas.forest) : ∃ info heading slug link container strip wrapper,
      root = (atlas.site "").grow info ∧ info.spec.expand = .rootItem ∧
      heading ∈ atlas.headings ∧ (atlas.site "").slug? heading.id = some slug ∧
      (atlas.site "").Frame info heading slug link container strip wrapper := by
  obtain ⟨info, hinfo, rfl⟩ := List.mem_map.mp hroot
  obtain ⟨index, hindex, rfl⟩ := List.mem_mapIdx.mp hinfo
  have hheading : atlas.headings[index] ∈ atlas.headings := List.getElem_mem hindex
  obtain ⟨slug, hslug⟩ := exists_slug? hheading ""
  have hsite : ((atlas.site "").atlas.entries.map Entry.id).Nodup := hdistinct
  obtain ⟨link, container, strip, wrapper, frame⟩ :=
    Site.exists_frame hsite (mem_of_mem_headings hheading) hslug index
  exact ⟨_, _, slug, link, container, strip, wrapper, rfl, rfl, hheading, hslug, frame⟩

/-- Looking for a container by its role and identifier finds it and nothing else. -/
theorem shownContainers_eq (hdistinct : (atlas.entries.map Entry.id).Nodup) {link container : Node}
    {slug : String} (hlink : link.domId? = some ("nav-" ++ slug))
    (hcontainer : container ∈ Node.nodesAll atlas.forest)
    (hkind : container.info.kind = "container")
    (hdomId : container.domId? = some ("container-" ++ slug)) :
    shownContainers atlas.forest link = [container] := by
  have htarget : link.target? = some ("container-" ++ slug) := by
    have hslug : Text.stripPrefix? "nav-".toList ("nav-" ++ slug).toList = some slug.toList := by
      rw [Text.stripPrefix?_eq_some_iff, String.toList_append]
    rw [Node.target?, hlink, Option.map_some, hslug]
    simp
  have hkey := Sketch.key?_eq_some_iff.mpr ⟨hkind, hdomId⟩
  rw [← filter_eq_singleton (nodup_keys_forest hdistinct) hcontainer hkey, shownContainers,
    withRole, List.filter_filter, htarget]
  refine List.filter_congr fun node hnode => ?_
  have hrole := role_eq_iff_kind_eq hnode ("container", "container", .container) (by decide)
  rw [Bool.eq_iff_iff, Bool.and_eq_true, decide_eq_true_iff, decide_eq_true_iff, hrole,
    decide_eq_true_iff, Sketch.key?_eq_some_iff, and_comm]
  rfl

end Atlas

namespace Site.Frame

variable {site : Site} (hdistinct : (site.atlas.entries.map Entry.id).Nodup) {heading : Entry}
  (hheading : heading ∈ site.atlas.entries) {slug : String}
  (hslug : site.slug? heading.id = some slug) {root link container strip wrapper : NodeInfo}
  (frame : site.Frame root heading slug link container strip wrapper)

include hdistinct hheading hslug frame

/-- The tabs of a heading are made from its list of tabs. -/
theorem expand?_strip : site.expand? (strip.attribute? Attributes.domId) strip.spec =
    some ((site.headingTabs heading slug).map (tabSketch (stripSketch heading slug).spec)) := by
  rw [frame.strip_eq]
  exact expand?_stripSketch hdistinct hheading hslug _

/-- The panels of a heading are made from its list of tabs. -/
theorem expand?_wrapper : site.expand? (wrapper.attribute? Attributes.domId) wrapper.spec =
    some ((site.headingTabs heading slug).map (panelSketch (wrapperSketch heading slug).spec)) := by
  rw [frame.wrapper_eq]
  exact expand?_wrapperSketch hdistinct hheading hslug _

/-- What ties the tabs of a heading to its panels. -/
theorem map_tie_tabs : (site.grow strip).children.map (·.info.tie) =
    (site.headingTabs heading slug).map fun tab => (some tab.domId, some tab.entry.id) := by
  rw [map_children_grow (frame.expand?_strip hdistinct hheading hslug) Sketch.tie, List.map_map]
  rfl

/-- What ties the panels of a heading to its tabs. -/
theorem map_tie_panels : (site.grow wrapper).children.map (·.info.tie) =
    (site.headingTabs heading slug).map fun tab => (some tab.domId, some tab.entry.id) := by
  rw [map_children_grow (frame.expand?_wrapper hdistinct hheading hslug) Sketch.tie, List.map_map]
  rfl

/-- No two panels of a heading have the same identifier. -/
theorem nodup_domId_panels : ((site.grow wrapper).children.filterMap Node.domId?).Nodup := by
  have hdomIds : (site.grow wrapper).children.filterMap Node.domId? =
      (tabNumbers (heading.members site.atlas.get?).length).map (viewId slug) := by
    have hties := congrArg (List.filterMap Prod.fst)
      (frame.map_tie_panels hdistinct hheading hslug)
    rw [List.filterMap_map, List.filterMap_map] at hties
    rw [← map_domId_headingTabs, ← List.filterMap_eq_map]
    exact hties
  rw [hdomIds]
  exact (nodup_tabNumbers _).map (viewId_injective slug)

/-- A tab shows the panel at its position and no other. -/
theorem shownPanels_eq
    (hswitched : (site.grow container).switchedPanels = (site.grow wrapper).children)
    {position : ℕ} {tab : Node} (htab : (site.grow strip).children[position]? = some tab) :
    tab.domId?.isSome ∧ ∃ panel, (site.grow wrapper).children[position]? = some panel ∧
      (site.grow container).shownPanels tab = [panel] := by
  have htabs := congrArg (·[position]?) (frame.map_tie_tabs hdistinct hheading hslug)
  have hpanels := congrArg (·[position]?) (frame.map_tie_panels hdistinct hheading hslug)
  simp only [List.getElem?_map, htab, Option.map_some] at htabs
  obtain ⟨source, _, htie⟩ := Option.map_eq_some_iff.mp htabs.symm
  simp only [List.getElem?_map] at hpanels
  rw [← htabs] at hpanels
  obtain ⟨panel, hpanel, htie'⟩ := Option.map_eq_some_iff.mp hpanels
  have htabId : tab.domId? = some source.domId := congrArg Prod.fst htie.symm
  have hpanelId : panel.domId? = some source.domId := (congrArg Prod.fst htie').trans htabId
  rw [htabId]
  refine ⟨rfl, panel, hpanel, ?_⟩
  rw [Node.shownPanels, hswitched, htabId]
  exact filter_eq_singleton (frame.nodup_domId_panels hdistinct hheading hslug)
    (List.mem_of_getElem? hpanel) hpanelId

end Site.Frame

namespace Atlas

variable {atlas : Atlas}

/-- The panels that the tabs of a container show and hide are those of its wrapper. -/
theorem switchedPanels_eq {container wrapper : Node}
    (hforest : ∀ node ∈ container.nodes, node ∈ Node.nodesAll atlas.forest)
    (hwrappers : container.wrappers = [wrapper])
    (hpanels : ∀ panel ∈ wrapper.children,
      panel.info.attribute? Attributes.role = some "content") :
    container.switchedPanels = wrapper.children := by
  have hrole : withRole "content-wrapper" container.nodes = container.wrappers := by
    refine List.filter_congr fun node hnode => decide_eq_decide.mpr ?_
    exact role_eq_iff_kind_eq (hforest node hnode)
      ("content-wrapper", "content-wrapper", .panels) (by decide)
  rw [Node.switchedPanels, hrole, hwrappers, List.flatMap_singleton, withRole,
    List.filter_eq_self]
  intro panel hpanel
  exact decide_eq_true (hpanels panel hpanel)

/-- With distinct identities every root of the forest can be navigated. -/
theorem exists_navigable (hdistinct : (atlas.entries.map Entry.id).Nodup) {root : Node}
    (hroot : root ∈ atlas.forest) : ∃ link container strip wrapper,
      Node.Navigable atlas.forest root link container strip wrapper := by
  obtain ⟨info, heading, slug, link, container, strip, wrapper, rfl, hinfo, hheading, hslug,
    frame⟩ := exists_frame_of_mem_forest hdistinct hroot
  have hentry := mem_of_mem_headings hheading
  have hstrip := frame.expand?_strip hdistinct hentry hslug
  have hwrapper := frame.expand?_wrapper hdistinct hentry hslug
  have hforest : ∀ node ∈ ((atlas.site "").grow container).nodes,
      node ∈ Node.nodesAll atlas.forest := by
    intro node hnode
    refine mem_nodesAll_of_mem_child hroot ?_ hnode
    rw [frame.rootChildren]
    simp
  have hself : (atlas.site "").grow container ∈ Node.nodesAll atlas.forest := by
    refine hforest _ ?_
    rw [Node.nodes_eq]
    exact List.mem_cons_self
  have hlinkId : ((atlas.site "").grow link).domId? = some ("nav-" ++ slug) := by
    rw [Node.domId?, Site.info_grow, frame.link_eq]
    rfl
  have hcontainerId : ((atlas.site "").grow container).domId? = some ("container-" ++ slug) := by
    rw [Node.domId?, Site.info_grow, frame.container_eq]
    rfl
  have hkind : ((atlas.site "").grow container).info.kind = "container" := by
    rw [Site.info_grow, frame.container_eq]
    rfl
  have hroles := Site.forall_mem_children_grow hwrapper
    (P := fun sketch => sketch.attribute? Attributes.role = some "content")
    (by simp [Site.panelSketch, sketch, Sketch.attribute?])
  have hswitched := switchedPanels_eq hforest frame.wrappers_container hroles
  refine ⟨(atlas.site "").grow link, (atlas.site "").grow container, (atlas.site "").grow strip,
    (atlas.site "").grow wrapper, ?_⟩
  constructor
  case rootChildren => exact frame.rootChildren
  case containerChildren => exact frame.containerChildren
  case kinds =>
    simp only [List.map_cons, List.map_nil, Site.info_grow, frame.link_eq, frame.container_eq,
      frame.strip_eq, frame.wrapper_eq]
    rfl
  case domIds => exact ⟨slug, hlinkId, hcontainerId⟩
  case shownContainers => exact shownContainers_eq hdistinct hlinkId hself hkind hcontainerId
  case tabs =>
    refine Site.forall_mem_children_grow hstrip (P := fun sketch => sketch.kind = "tab") ?_
    simp [Site.tabSketch, sketch]
  case panels =>
    refine Site.forall_mem_children_grow hwrapper (P := fun sketch => sketch.kind = "content") ?_
    simp [Site.panelSketch, sketch]
  case switchedPanels => exact hswitched
  case ties =>
    exact (frame.map_tie_tabs hdistinct hentry hslug).trans
      (frame.map_tie_panels hdistinct hentry hslug).symm
  case shownPanels =>
    intro position tab htab
    exact frame.shownPanels_eq hdistinct hentry hslug hswitched htab

/-- In the forest of an atlas roles tell kinds, every container is that of a root, and every root
can be navigated: its link shows its own container and no other one of the forest, and in the
container tabs and panels stand in pairs and every tab shows its own panel and no other. -/
theorem forest_navigable (hdistinct : (atlas.entries.map Entry.id).Nodup) :
    (∀ node ∈ Node.nodesAll atlas.forest, ∀ shape ∈ shapes,
      node.info.attribute? Attributes.role = some shape.2.1 ↔ node.info.kind = shape.1) ∧
    (∀ node ∈ Node.nodesAll atlas.forest, node.info.kind = "container" →
      ∃ root ∈ atlas.forest, node ∈ root.children) ∧
    ∀ root ∈ atlas.forest, ∃ link container strip wrapper,
      Node.Navigable atlas.forest root link container strip wrapper := by
  refine ⟨fun _ hnode => role_eq_iff_kind_eq hnode, ?_,
    fun root hroot => exists_navigable hdistinct hroot⟩
  intro node hnode hkind
  have hexpand := expand_eq_of_kind_eq_container hnode hkind
  rw [Node.nodesAll_eq_flatMap, List.mem_flatMap] at hnode
  obtain ⟨root, hroot, hnode⟩ := hnode
  refine ⟨root, hroot, ?_⟩
  obtain ⟨info, heading, slug, link, container, strip, wrapper, rfl, hinfo, _, _, frame⟩ :=
    exists_frame_of_mem_forest hdistinct hroot
  obtain rfl := frame.eq_container_of_mem_nodes (by simp [hinfo]) hnode hexpand
  rw [frame.rootChildren]
  simp

/-- Headings that look alike can be told apart by the script of a page. -/
theorem forest_navigable_lookalikes :
    (lookalikes.entries.map Entry.id).Nodup ∧
      (∀ node ∈ Node.nodesAll lookalikes.forest, ∀ shape ∈ shapes,
        node.info.attribute? Attributes.role = some shape.2.1 ↔ node.info.kind = shape.1) ∧
      (∀ node ∈ Node.nodesAll lookalikes.forest, node.info.kind = "container" →
        ∃ root ∈ lookalikes.forest, node ∈ root.children) ∧
      ∀ root ∈ lookalikes.forest, ∃ link container strip wrapper,
        Node.Navigable lookalikes.forest root link container strip wrapper := by
  have hdistinct : (lookalikes.entries.map Entry.id).Nodup := by decide
  exact ⟨hdistinct, forest_navigable hdistinct⟩

end Atlas

end DocAtlas
