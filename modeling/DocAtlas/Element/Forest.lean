import DocAtlas.Element.Basic
import DocAtlas.Element.Field
import DocAtlas.Element.Slug

/-!
# The forest of an atlas

Every heading of an atlas gives a tree of elements. A node's children follow from its
specification alone, so a tree grows from its root until nothing is pending. Growth ends because
every step leads to a simpler kind of expansion, or adds an entry to the path of entries that are
already expanded above.

All nodes that are made have attributes. A given node may lack them, and then filling in its tree
fails at that node if its children read them, and leaves what follows as it was.
-/

namespace DocAtlas

open DocAtlas.Element

namespace Element

/-- The text of a node whose children cannot be made. -/
def errorText : String := "This element could not be rendered."

/-- A node with the attributes that all made nodes have. -/
def sketch (kind role : String) (attributes : Attributes) (sourceId : Option String := none)
    (spec : Spec := {}) : Sketch :=
  { kind, attributes := some { attributes with role := some role }, sourceId, spec }

/-- The identity of a child: that of its parent and the child's position, behind a mark. -/
def childId (mark parent : String) (index : Nat) : String :=
  mark ++ parent ++ "." ++ index.repr

/-- The identity of a child is longer than the mark. -/
theorem length_lt_childId (mark parent : String) (index : Nat) :
    mark.length < (childId mark parent index).length := by
  simp only [childId, String.length_append]
  have : ".".length = 1 := rfl
  omega

/-- Make a sketch the child of a node at a position. -/
def NodeInfo.child (mark : String) (parent : NodeInfo) (index : Nat) (sketch : Sketch) :
    NodeInfo :=
  { toSketch := sketch, id := childId mark parent.id index, parentId := some parent.id }

/-- The only child of a node whose children cannot be made. -/
def NodeInfo.placeholder (mark : String) (parent : NodeInfo) : Node :=
  .resolved
    (parent.child mark 0
      (sketch "error" "error"
        { value := some errorText, group := parent.attribute? Attributes.group }))
    []

end Element

/-- What all nodes of a page grow from: an atlas, the slugs of its headings and the mark of new
identities. -/
structure Site where
  atlas : Atlas
  slugs : SlugTable
  mark : String

/-- The site of an atlas. -/
def Atlas.site (atlas : Atlas) (mark : String) : Site :=
  { atlas, slugs := atlas.slugs, mark }

namespace Atlas

/-- The members of an entry that the atlas knows. -/
def panelMembers (atlas : Atlas) (entry : Entry) : List Entry :=
  entry.members atlas.latest?

/-- The entry that a navigation link leads to: the declarer of the heading's namespace. -/
def navTarget (atlas : Atlas) (heading : Entry) : String :=
  match atlas.namespaces.findRev? (·.description = heading.group) with
  | some declaration => declaration.id
  | none => heading.id

end Atlas

namespace Site

/-- The slug of a heading. -/
def slug? (site : Site) (id : String) : Option String :=
  site.slugs.get? id

/-- The navigation link and the container of a heading. -/
def rootChildren? (site : Site) (spec : Spec) : Option (List Sketch) := do
  let entry ← spec.sourceId.bind site.atlas.latest?
  let slug ← site.slug? entry.id
  some
    [sketch "nav-link" "nav-header-link"
      { value := spec.group
        group := spec.group
        subGroup := entry.modules.head?
        domId := some ("nav-" ++ slug) }
      (some entry.id) { expand := .navLinks, sourceId := some entry.id, group := spec.group },
    sketch "container" "container"
      { group := spec.group, domId := some ("container-" ++ slug) }
      (some entry.id) { expand := .container, sourceId := some entry.id, group := spec.group }]

/-- A link to one heading from inside the node with the given identifier. -/
def navSublink (site : Site) (domId : Option String) (heading : Entry) : Sketch :=
  sketch "nav-sublink" "nav-header-sublink"
    { value := some ((heading.modules.head?.bind Text.nonempty?).getD heading.group)
      group := some heading.group
      subGroup := heading.modules.head?
      domId := some (spelled domId ++ "--" ++ spelled (site.slug? heading.id)) }
    (some (site.atlas.navTarget heading))

/-- The tab strip and the panels of a heading. -/
def containerChildren? (site : Site) (spec : Spec) : Option (List Sketch) := do
  let slug ← spec.sourceId.bind site.slug?
  some
    [sketch "tab-strip" "tab-strip-nav"
      { group := spec.group, domId := some ("tab-strip-" ++ slug) }
      spec.sourceId { expand := .tabs, sourceId := spec.sourceId, group := spec.group },
    sketch "content-wrapper" "content-wrapper"
      { group := spec.group, domId := some ("content-" ++ slug) }
      spec.sourceId { expand := .panels, sourceId := spec.sourceId, group := spec.group }]

/-- A tab and its panel: the entry that they show, the label and the identifier in the page. -/
structure Tab where
  entry : Entry
  label : String
  domId : String

/-- The tabs of a heading: an overview and one tab per member. -/
def tabsOf? (site : Site) (sourceId : Option String) : Option (List Tab) := do
  let heading ← sourceId.bind site.atlas.latest?
  let slug ← sourceId.bind site.slug?
  some
    ({ entry := heading, label := "Overview", domId := slug ++ "-overview" } ::
      (site.atlas.panelMembers heading).mapIdx fun index member =>
        { entry := member, label := member.title, domId := slug ++ "-tab-" ++ (index + 1).repr })

/-- The division of a tab: the overview, or the kind of its entry. -/
def tabDivision (sourceId : Option String) (entry : Entry) : Option String :=
  if some entry.id = sourceId then some "overview" else entry.kind

/-- A tab of a heading. -/
def tabSketch (spec : Spec) (tab : Tab) : Sketch :=
  sketch "tab" "tab-strip-nav-link"
    { value := some tab.label
      group := spec.group
      subGroup := tabDivision spec.sourceId tab.entry
      domId := some tab.domId }
    (some tab.entry.id)

/-- A panel of a heading. -/
def panelSketch (spec : Spec) (tab : Tab) : Sketch :=
  sketch "content" "content"
    { group := spec.group
      subGroup := tabDivision spec.sourceId tab.entry
      domId := some tab.domId }
    (some tab.entry.id)
    { expand := .fields
      sourceId := some tab.entry.id
      group := spec.group
      path := spec.sourceId.toList ++ [tab.entry.id] }

/-- A field of an entry. -/
def fieldSketch (group : Option String) (field : Field) : Sketch :=
  sketch "field" "content-field"
    { value := some field.2, group, subGroup := some field.1 }

/-- The panel of a member inside the panel with the given identifier. -/
def memberSketch (domId : Option String) (spec : Spec) (index : Nat) (member : Entry) : Sketch :=
  sketch "content" "content"
    { group := spec.group
      subGroup := member.kind
      domId := some (spelled domId ++ "-" ++ (index + 1).repr) }
    (some member.id)
    { expand := .fields
      sourceId := some member.id
      group := spec.group
      path := spec.path ++ [member.id] }

/-- The panels of an entry's members. An overview has none, and an entry that is already expanded
above is left out; the others keep their position as number. -/
def memberPanels (atlas : Atlas) (domId : Option String) (spec : Spec) (entry : Entry) :
    List Sketch :=
  if spec.path.head? = some entry.id then []
  else
    ((atlas.panelMembers entry).zipIdx.filter fun (member, _) => member.id ∉ spec.path).map
      fun (member, index) => memberSketch domId spec index member

/-- The children that a specification stands for; nothing if it needs an entry that the atlas
does not have. -/
def expand? (site : Site) (domId : Option String) (spec : Spec) : Option (List Sketch) :=
  match spec.expand with
  | .none => some []
  | .rootItem => site.rootChildren? spec
  | .navLinks => some (site.atlas.headings.map (site.navSublink domId))
  | .container => site.containerChildren? spec
  | .tabs => (site.tabsOf? spec.sourceId).map fun tabs => tabs.map (tabSketch spec)
  | .panels => (site.tabsOf? spec.sourceId).map fun tabs => tabs.map (panelSketch spec)
  | .fields =>
    (spec.sourceId.bind site.atlas.latest?).map fun entry =>
      (site.atlas.fieldsOf entry).map (fieldSketch spec.group) ++
        memberPanels site.atlas domId spec entry

end Site

namespace Atlas

/-- The number of entries that are not on a path. -/
def offPath (atlas : Atlas) (path : List String) : Nat :=
  atlas.entries.countP fun entry => entry.id ∉ path

/-- A bound on how deep a tree can grow below a node with the given specification. -/
def weight (atlas : Atlas) (spec : Spec) : Nat :=
  match spec.expand with
  | .none => 0
  | .navLinks => 1
  | .tabs => 1
  | .fields => 1 + atlas.offPath spec.path
  | .panels => 2 + atlas.entries.length
  | .container => 3 + atlas.entries.length
  | .rootItem => 4 + atlas.entries.length

/-- No more entries are off a path than there are. -/
theorem offPath_le (atlas : Atlas) (path : List String) :
    atlas.offPath path ≤ atlas.entries.length :=
  List.countP_le_length

/-- Putting an entry of the atlas on a path leaves fewer entries off it. -/
theorem offPath_lt (atlas : Atlas) {entry : Entry} (path : List String)
    (hmem : entry ∈ atlas.entries) (hpath : entry.id ∉ path) :
    atlas.offPath (path ++ [entry.id]) < atlas.offPath path := by
  unfold offPath
  refine countP_lt_countP ?_ hmem (by simp) (by simpa using hpath)
  intro x _ hx
  simp only [decide_eq_true_eq, List.mem_append, not_or] at hx ⊢
  exact hx.1

/-- The members of an entry are entries of the atlas. -/
theorem mem_of_mem_panelMembers {atlas : Atlas} {entry member : Entry}
    (h : member ∈ atlas.panelMembers entry) : member ∈ atlas.entries :=
  Entry.mem_of_mem_members (fun _ _ => mem_of_latest?) h

end Atlas

namespace Site

/-- Every child that a specification stands for has a smaller weight. -/
theorem weight_lt {site : Site} {domId : Option String} {spec : Spec} {sketches : List Sketch}
    (h : site.expand? domId spec = some sketches) {s : Sketch} (hs : s ∈ sketches) :
    site.atlas.weight s.spec < site.atlas.weight spec := by
  obtain ⟨expand, sourceId, group, path⟩ := spec
  cases expand with
  | none =>
    simp only [expand?, Option.some.injEq] at h
    subst h
    simp at hs
  | rootItem =>
    simp only [expand?, rootChildren?, Option.bind_eq_bind, Option.bind_eq_some_iff,
      Option.some.injEq] at h
    obtain ⟨entry, _, slug, _, rfl⟩ := h
    simp only [List.mem_cons, List.not_mem_nil, or_false] at hs
    rcases hs with rfl | rfl <;> simp only [sketch, Atlas.weight] <;> omega
  | navLinks =>
    simp only [expand?, Option.some.injEq] at h
    subst h
    obtain ⟨_, _, rfl⟩ := List.mem_map.mp hs
    simp [navSublink, sketch, Atlas.weight]
  | container =>
    simp only [expand?, containerChildren?, Option.bind_eq_bind, Option.bind_eq_some_iff,
      Option.some.injEq] at h
    obtain ⟨slug, _, rfl⟩ := h
    simp only [List.mem_cons, List.not_mem_nil, or_false] at hs
    rcases hs with rfl | rfl <;> simp only [sketch, Atlas.weight] <;> omega
  | tabs =>
    simp only [expand?, Option.map_eq_some_iff] at h
    obtain ⟨_, _, rfl⟩ := h
    obtain ⟨_, _, rfl⟩ := List.mem_map.mp hs
    simp [tabSketch, sketch, Atlas.weight]
  | panels =>
    simp only [expand?, Option.map_eq_some_iff] at h
    obtain ⟨_, _, rfl⟩ := h
    obtain ⟨tab, _, rfl⟩ := List.mem_map.mp hs
    have := site.atlas.offPath_le (sourceId.toList ++ [tab.entry.id])
    simp only [panelSketch, sketch, Atlas.weight]
    omega
  | fields =>
    simp only [expand?, Option.map_eq_some_iff] at h
    obtain ⟨entry, _, rfl⟩ := h
    rcases List.mem_append.mp hs with hs | hs
    · obtain ⟨_, _, rfl⟩ := List.mem_map.mp hs
      simp only [fieldSketch, sketch, Atlas.weight]
      omega
    · unfold memberPanels at hs
      split at hs
      · simp at hs
      · obtain ⟨⟨member, index⟩, hmember, rfl⟩ := List.mem_map.mp hs
        obtain ⟨hzip, hpath⟩ := List.mem_filter.mp hmember
        have hentry : member ∈ site.atlas.entries :=
          Atlas.mem_of_mem_panelMembers (List.fst_mem_of_mem_zipIdx hzip)
        have := site.atlas.offPath_lt path hentry (by simpa using hpath)
        simp only [memberSketch, sketch, Atlas.weight]
        omega

/-- The children of a node, nothing if they cannot be made. -/
def childrenOf? (site : Site) (info : NodeInfo) : Option (List NodeInfo) :=
  (site.expand? (info.attribute? Attributes.domId) info.spec).map fun sketches =>
    sketches.mapIdx fun index sketch => info.child site.mark index sketch

/-- The children of a node have smaller weights. -/
theorem weight_childrenOf?_lt {site : Site} {info child : NodeInfo} {infos : List NodeInfo}
    (h : site.childrenOf? info = some infos) (hchild : child ∈ infos) :
    site.atlas.weight child.spec < site.atlas.weight info.spec := by
  simp only [childrenOf?, Option.map_eq_some_iff] at h
  obtain ⟨sketches, hsketches, rfl⟩ := h
  obtain ⟨index, hindex, rfl⟩ := List.mem_mapIdx.mp hchild
  exact weight_lt hsketches (List.getElem_mem hindex)

/-- The tree that grows from a node. A node whose children cannot be made gets a placeholder. -/
def grow (site : Site) (info : NodeInfo) : Node :=
  match _h : site.childrenOf? info with
  | none => .resolved info [info.placeholder site.mark]
  | some infos =>
    .resolved info (infos.attach.map fun ⟨child, _⟩ => site.grow child)
termination_by site.atlas.weight info.spec
decreasing_by exact weight_childrenOf?_lt _h (by assumption)

/-- Does making the children of a node read its attributes? Links and the panels of members take over
its identifier in the page, and a placeholder its group. -/
def readsAttributes (site : Site) (spec : Spec) : Bool :=
  match spec.expand, site.expand? none spec with
  | _, none => true
  | .navLinks, some sketches => !sketches.isEmpty
  | .fields, some sketches => sketches.any (·.kind = "content")
  | _, some _ => false

/-- Does making the children of a node fail, because it reads attributes that the node lacks? -/
def stops (site : Site) (info : NodeInfo) : Bool :=
  info.attributes.isNone && site.readsAttributes info.spec

mutual

/-- Fill in the children that are pending in a tree, up to the first node at which this fails. -/
def fill (site : Site) : Node → Filling Node
  | .pending info =>
    if site.stops info then { left := .pending info, finished := false }
    else { left := site.grow info, finished := true }
  | .resolved info children => (site.fillAll children).map (.resolved info)

/-- Fill in the children that are pending in a forest, up to the first node at which this fails. -/
def fillAll (site : Site) : List Node → Filling (List Node)
  | [] => { left := [], finished := true }
  | node :: rest =>
    let first := site.fill node
    if first.finished then (site.fillAll rest).map (first.left :: ·)
    else { left := first.left :: rest, finished := false }

end

/-- The root node of a heading at a position. -/
def rootInfo (site : Site) (index : Nat) (heading : Entry) : NodeInfo :=
  { toSketch :=
      sketch "root-item" "root-item"
        { value := some heading.title
          group := some heading.group
          subGroup := heading.modules.head?
          domId := some ("root-" ++ spelled (site.slug? heading.id)) }
        (some heading.id)
        { expand := .rootItem, sourceId := some heading.id, group := some heading.group }
    id := index.repr
    parentId := none }

/-- The forest of a site: one tree per heading. -/
def forest (site : Site) : List Node :=
  (site.atlas.headings.mapIdx site.rootInfo).map site.grow

end Site

namespace Atlas

/-- What is left of a tree when its pending children are filled in. The identities of the new nodes
are longer than all that the tree holds, so none of those can mean a new node. -/
def materialize (atlas : Atlas) (node : Node) : Node :=
  ((atlas.site node.freshMark).fill node).left

/-- Does filling in a tree get to its end? -/
def completes (atlas : Atlas) (node : Node) : Bool :=
  ((atlas.site node.freshMark).fill node).finished

/-- The forest of an atlas. -/
def forest (atlas : Atlas) : List Node :=
  (atlas.site "").forest

end Atlas

end DocAtlas
