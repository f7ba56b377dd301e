import DocAtlas.Proofs.Atlas.Members
import DocAtlas.Proofs.Element.Growth
import DocAtlas.Proofs.FirstOccurrences
import Mathlib.Data.List.Chain
import Mathlib.Data.List.Perm.Subperm

/-!
# Nested panels

Filling in a tree makes nodes whose children are made in turn, and the members of entries may run in
circles. It comes to an end all the same: a panel inside a panel shows an entry that is not on the
path of the outer one and puts it on its own path, so that fewer identities are off the path. Hence
panels that lie in one another show different entries, and there are at most as many of them as the
entries have identities.

The nodes that were made can be told from the given ones by their identities.
-/

namespace DocAtlas

open DocAtlas.Element

namespace Site

/-! ## Filling in comes to an end -/

/-- Work on nodes one after the other, up to the first one at which it fails; nothing if the work on one
of them has no end. -/
def inTurn (work : Node → Option (Filling Node)) : List Node → Option (Filling (List Node))
  | [] => some { left := [], finished := true }
  | node :: rest => do
    let first ← work node
    if first.finished then (inTurn work rest).map (·.map (first.left :: ·))
    else some { left := first.left :: rest, finished := false }

/-- Fill in the children that are pending in a tree, going down at most the given number of levels and
to the given children and the made ones alike; nothing if the tree is deeper. -/
def fillWithin (site : Site) : Nat → Node → Option (Filling Node)
  | 0, _ => none
  | levels + 1, .pending info =>
    if site.stops info then some { left := .pending info, finished := false }
    else
      match site.childrenOf? info with
      | none => some { left := .resolved info [info.placeholder site.mark], finished := true }
      | some infos =>
        (inTurn (site.fillWithin levels) (infos.map .pending)).map (·.map (.resolved info))
  | levels + 1, .resolved info children =>
    (inTurn (site.fillWithin levels) children).map (·.map (.resolved info))

/-- Work that gets to its end at every node gets to its end. -/
theorem inTurn_eq_some {work : Node → Option (Filling Node)} {make : NodeInfo → Node}
    {infos : List NodeInfo}
    (h : ∀ info ∈ infos, work (.pending info) = some { left := make info, finished := true }) :
    inTurn work (infos.map .pending) = some { left := infos.map make, finished := true } := by
  induction infos with
  | nil => rfl
  | cons first rest ih =>
    rw [List.forall_mem_cons] at h
    rw [List.map_cons, inTurn, h.1, ih h.2]
    rfl

/-- Nothing fails at the children of a node, since they have attributes. -/
theorem stops_of_mem_childrenOf? {site : Site} {info child : NodeInfo} {infos : List NodeInfo}
    (h : site.childrenOf? info = some infos) (hchild : child ∈ infos) : site.stops child = false := by
  obtain ⟨sketches, hsketches, rfl⟩ := Option.map_eq_some_iff.mp h
  obtain ⟨index, hindex, rfl⟩ := List.mem_mapIdx.mp hchild
  have hattributes := attributes_isSome_of_mem_expand? hsketches (List.getElem_mem hindex)
  rw [stops, Bool.and_eq_false_imp, Option.isNone_iff_eq_none]
  intro hnone
  rw [show (sketches[index]).attributes = none from hnone] at hattributes
  cases hattributes

/-- More levels than the weight of a node are enough to grow its tree. -/
theorem fillWithin_pending {site : Site} {levels : Nat} {info : NodeInfo}
    (h : site.atlas.weight info.spec < levels) (hstops : site.stops info = false) :
    site.fillWithin levels (.pending info) = some { left := site.grow info, finished := true } := by
  induction levels generalizing info with
  | zero => exact absurd h (Nat.not_lt_zero _)
  | succ levels ih =>
    rw [fillWithin, hstops]
    cases hchildren : site.childrenOf? info with
    | none =>
      rw [grow_eq_of_none hchildren]
      rfl
    | some infos =>
      have hgrow : ∀ child ∈ infos, site.fillWithin levels (.pending child) =
          some { left := site.grow child, finished := true } := by
        intro child hchild
        have hless := weight_childrenOf?_lt hchildren hchild
        exact ih (by omega) (stops_of_mem_childrenOf? hchildren hchild)
      rw [grow_eq_of_some hchildren]
      simp only [inTurn_eq_some hgrow, Bool.false_eq_true, if_false]
      rfl

mutual

/-- Some number of levels, and every greater one, is enough to fill in a tree. -/
theorem exists_fillWithin (site : Site) : (node : Node) →
    ∃ levels, ∀ more ≥ levels, site.fillWithin more node = some (site.fill node)
  | .pending info => by
    refine ⟨site.atlas.weight info.spec + 1, fun more hmore => ?_⟩
    cases hstops : site.stops info with
    | false =>
      rw [fillWithin_pending hmore hstops, fill, hstops]
      rfl
    | true =>
      obtain ⟨more, rfl⟩ : ∃ less, more = less + 1 := ⟨more - 1, by omega⟩
      rw [fillWithin, fill, hstops]
      rfl
  | .resolved info children => by
    obtain ⟨levels, hlevels⟩ := exists_inTurn_fillWithin site children
    refine ⟨levels + 1, fun more hmore => ?_⟩
    obtain ⟨more, rfl⟩ : ∃ less, more = less + 1 := ⟨more - 1, by omega⟩
    rw [fillWithin, hlevels more (by omega), fill]
    rfl

/-- Some number of levels, and every greater one, is enough to fill in a forest. -/
theorem exists_inTurn_fillWithin (site : Site) : (nodes : List Node) →
    ∃ levels, ∀ more ≥ levels, inTurn (site.fillWithin more) nodes = some (site.fillAll nodes)
  | [] => ⟨0, fun _ _ => rfl⟩
  | node :: rest => by
    obtain ⟨first, hfirst⟩ := exists_fillWithin site node
    obtain ⟨others, hothers⟩ := exists_inTurn_fillWithin site rest
    refine ⟨max first others, fun more hmore => ?_⟩
    rw [inTurn, hfirst more (by omega), hothers more (by omega), fillAll]
    exact (apply_ite some _ _ _).symm

end

/-! ## What is made -/

/-- What holds of the children and placeholders that are made for the nodes of some sort holds of
everything below such a node, if it makes them nodes of that sort. -/
theorem forall_mem_below_grow {site : Site} {P Q : NodeInfo → Prop}
    (hsort : ∀ info, P info → Q info)
    (hchild : ∀ info infos, Q info → site.childrenOf? info = some infos → ∀ child ∈ infos, P child)
    (hplaceholder : ∀ info : NodeInfo, P (info.placeholder site.mark).info) {info : NodeInfo}
    (hinfo : Q info) : ∀ node ∈ (site.grow info).children.flatMap Node.nodes, P node.info := by
  intro node hnode
  cases h : site.childrenOf? info with
  | none =>
    rw [grow_eq_of_none h, Node.children, List.flatMap_singleton] at hnode
    obtain rfl := List.mem_singleton.mp hnode
    exact hplaceholder info
  | some infos =>
    rw [grow_eq_of_some h, Node.children, List.flatMap_map, List.mem_flatMap] at hnode
    obtain ⟨child, hmem, hnode⟩ := hnode
    exact forall_mem_nodes_grow (fun parent infos hparent => hchild parent infos (hsort _ hparent))
      (fun parent _ _ => hplaceholder parent) (hchild info infos hinfo h child hmem) node hnode

/-- The nodes of a grown tree are grown themselves, apart from placeholders. -/
theorem eq_grow_of_mem_nodes_grow {site : Site} {info : NodeInfo} {node : Node}
    (hnode : node ∈ (site.grow info).nodes) (hkind : node.info.kind ≠ "error") :
    node = site.grow node.info := by
  induction hweight : site.atlas.weight info.spec using Nat.strongRecOn generalizing info with
  | _ weight ih =>
    rw [Node.nodes_eq, List.mem_cons] at hnode
    rcases hnode with rfl | hnode
    · rw [info_grow]
    cases h : site.childrenOf? info with
    | none =>
      rw [grow_eq_of_none h, Node.children, List.flatMap_singleton] at hnode
      obtain rfl := List.mem_singleton.mp hnode
      exact absurd rfl hkind
    | some infos =>
      rw [grow_eq_of_some h, Node.children, List.flatMap_map, List.mem_flatMap] at hnode
      obtain ⟨child, hchild, hnode⟩ := hnode
      refine ih _ ?_ hnode rfl
      rw [← hweight]
      exact weight_childrenOf?_lt h hchild

/-- A node is one of the given ones, perhaps with other children, or it was made below one of them that
was pending. -/
def ComesFrom (site : Site) (given : List Node) (part : Node) : Prop :=
  part.info ∈ given.map Node.info ∨
    ∃ info, .pending info ∈ given ∧ part ∈ (site.grow info).children.flatMap Node.nodes

/-- What comes from nodes comes from more nodes. -/
theorem ComesFrom.mono {site : Site} {given more : List Node} {part : Node}
    (h : site.ComesFrom given part) (hmore : given ⊆ more) : site.ComesFrom more part := by
  rcases h with hinfo | ⟨info, hpending, hbelow⟩
  · exact Or.inl (List.map_subset _ hmore hinfo)
  · exact Or.inr ⟨info, hmore hpending, hbelow⟩

mutual

/-- The nodes of a filled tree come from the nodes of the tree. -/
theorem comesFrom_of_mem_nodes_fill (site : Site) {part : Node} : (node : Node) →
    part ∈ (site.fill node).left.nodes → site.ComesFrom node.nodes part
  | .pending info, hpart => by
    rw [fill] at hpart
    split at hpart
    · exact Or.inl (List.mem_map_of_mem hpart)
    · rw [Node.nodes_eq, List.mem_cons] at hpart
      rcases hpart with rfl | hpart
      · exact Or.inl (List.mem_singleton.mpr (info_grow site info))
      · exact Or.inr ⟨info, List.mem_singleton_self _, hpart⟩
  | .resolved info children, hpart => by
    rw [fill, Filling.map, Node.nodes, List.mem_cons] at hpart
    rcases hpart with rfl | hpart
    · exact Or.inl List.mem_cons_self
    · exact (comesFrom_of_mem_nodesAll_fillAll site children hpart).mono (List.subset_cons_self _ _)

/-- The nodes of a filled forest come from the nodes of the forest. -/
theorem comesFrom_of_mem_nodesAll_fillAll (site : Site) {part : Node} : (forest : List Node) →
    part ∈ Node.nodesAll (site.fillAll forest).left → site.ComesFrom (Node.nodesAll forest) part
  | [], hpart => by cases hpart
  | node :: rest, hpart => by
    have hfirst (h : part ∈ (site.fill node).left.nodes) :=
      (comesFrom_of_mem_nodes_fill site node h).mono
        (List.subset_append_left node.nodes (Node.nodesAll rest))
    rw [fillAll] at hpart
    split at hpart
    · rcases List.mem_append.mp hpart with hpart | hpart
      · exact hfirst hpart
      · exact (comesFrom_of_mem_nodesAll_fillAll site rest hpart).mono
          (List.subset_append_right node.nodes _)
    · rcases List.mem_append.mp hpart with hpart | hpart
      · exact hfirst hpart
      · exact Or.inl (List.mem_map_of_mem (List.mem_append_right _ hpart))

end

/-- Filling in keeps a node. -/
theorem info_fill (site : Site) (node : Node) : (site.fill node).left.info = node.info := by
  cases node with
  | pending info =>
    rw [fill]
    split
    · rfl
    · rw [info_grow, Node.info]
  | resolved info children => rfl

/-- What grows from a child of a node is below that node. -/
theorem mem_below_grow {site : Site} {info child : NodeInfo} {infos : List NodeInfo}
    (h : site.childrenOf? info = some infos) (hchild : child ∈ infos) {part : Node}
    (hpart : part ∈ (site.grow child).nodes) :
    part ∈ (site.grow info).children.flatMap Node.nodes := by
  rw [grow_eq_of_some h, Node.children, List.flatMap_map]
  exact List.mem_flatMap_of_mem hchild hpart

/-- The identity of a node that is made is longer than the mark. -/
theorem length_mark_lt_of_mem_below_grow {site : Site} {info : NodeInfo} :
    ∀ node ∈ (site.grow info).children.flatMap Node.nodes,
      site.mark.length < node.info.id.length := by
  refine forall_mem_below_grow (P := fun made => site.mark.length < made.id.length)
    (fun _ _ => trivial) ?_ ?_ trivial
  · intro parent infos _ h child hchild
    obtain ⟨sketches, _, rfl⟩ := Option.map_eq_some_iff.mp h
    obtain ⟨index, _, rfl⟩ := List.mem_mapIdx.mp hchild
    exact length_lt_childId site.mark parent.id index
  · intro parent
    exact length_lt_childId site.mark parent.id 0

end Site

mutual

/-- No identity in a tree is longer than the longest one. -/
theorem Element.Node.length_id_le_longestId : (node : Node) → ∀ part ∈ node.nodes,
    part.info.id.length ≤ node.longestId
  | .pending info => by
    intro part hpart
    obtain rfl := List.mem_singleton.mp hpart
    exact Nat.le_max_left _ _
  | .resolved info children => by
    intro part hpart
    rw [longestId]
    rcases List.mem_cons.mp hpart with rfl | hpart
    · exact (Nat.le_max_left _ _).trans (Nat.le_max_left _ _)
    · exact (length_id_le_longestIdOf children part hpart).trans (Nat.le_max_right _ _)

/-- No identity in a forest is longer than the longest one. -/
theorem Element.Node.length_id_le_longestIdOf : (forest : List Node) → ∀ part ∈ nodesAll forest,
    part.info.id.length ≤ longestIdOf forest
  | [] => by simp [nodesAll]
  | node :: rest => by
    intro part hpart
    rw [longestIdOf]
    rcases List.mem_append.mp hpart with hpart | hpart
    · exact (length_id_le_longestId node part hpart).trans (Nat.le_max_left _ _)
    · exact (length_id_le_longestIdOf rest part hpart).trans (Nat.le_max_right _ _)

end

namespace Atlas

/-- The nodes that were made when a tree was filled in: none of the given ones has their
identity. -/
def made (atlas : Atlas) (node : Node) : List Node :=
  (atlas.materialize node).nodes.filter fun part => part.info.id ∉ node.nodes.map (·.info.id)

/-- What was made grew below a node that was pending. -/
theorem exists_pending_of_mem_made {atlas : Atlas} {node part : Node} (h : part ∈ atlas.made node) :
    ∃ info, .pending info ∈ node.nodes ∧
      part ∈ ((atlas.site node.freshMark).grow info).children.flatMap Node.nodes := by
  rw [made, List.mem_filter, decide_eq_true_eq] at h
  obtain ⟨hpart, hid⟩ := h
  refine (Site.comesFrom_of_mem_nodes_fill _ node hpart).resolve_left fun hinfo => hid ?_
  obtain ⟨given, hgiven, hsame⟩ := List.mem_map.mp hinfo
  exact List.mem_map.mpr ⟨given, hgiven, congrArg NodeInfo.id hsame⟩

/-- What is in a filled tree and has grown below some node was made. -/
theorem mem_made_of_mem_grow {atlas : Atlas} {node part : Node} {info : NodeInfo}
    (hpart : part ∈ (atlas.materialize node).nodes)
    (hbelow : part ∈ ((atlas.site node.freshMark).grow info).children.flatMap Node.nodes) :
    part ∈ atlas.made node := by
  rw [made, List.mem_filter, decide_eq_true_eq]
  refine ⟨hpart, fun hid => ?_⟩
  obtain ⟨given, hgiven, hsame⟩ := List.mem_map.mp hid
  have hlong := Site.length_mark_lt_of_mem_below_grow part hbelow
  have hshort := Node.length_id_le_longestId node given hgiven
  rw [hsame] at hshort
  rw [site, Node.freshMark, String.length_ofList, List.length_replicate] at hlong
  omega

/-! ## Panels in panels -/

/-- The identities of the entries, each once. -/
def knownIds (atlas : Atlas) : List String :=
  (atlas.entries.map Entry.id).eraseDups

/-- The number of identities of entries that are not on a path. -/
def idsOffPath (atlas : Atlas) (path : List String) : Nat :=
  atlas.knownIds.countP (· ∉ path)

/-- The identities of entries are known. -/
theorem id_mem_knownIds {atlas : Atlas} {entry : Entry} (h : entry ∈ atlas.entries) :
    entry.id ∈ atlas.knownIds :=
  List.mem_eraseDups.mpr (List.mem_map_of_mem h)

/-- A panel inside another one: what is on the path of the outer one is on its path too, and the
entry that it shows is on its own path only. -/
structure Deeper (atlas : Atlas) (outer inner : Sketch) : Prop where
  path : outer.spec.path ⊆ inner.spec.path
  source : ∃ id ∈ atlas.knownIds, inner.sourceId = some id ∧ id ∈ inner.spec.path ∧
    id ∉ outer.spec.path

variable {atlas : Atlas}

/-- A panel inside another one is inside everything with a smaller path. -/
theorem Deeper.of_subset {outer middle inner : Sketch}
    (hpath : outer.spec.path ⊆ middle.spec.path) (h : atlas.Deeper middle inner) :
    atlas.Deeper outer inner := by
  obtain ⟨id, hknown, hsource, hmem, hnew⟩ := h.source
  exact ⟨fun other hother => h.path (hpath hother), id, hknown, hsource, hmem,
    fun hold => hnew (hpath hold)⟩

/-- A panel inside a panel inside another one is inside that one. -/
theorem Deeper.trans {outer middle inner : Sketch} (hmiddle : atlas.Deeper outer middle)
    (hinner : atlas.Deeper middle inner) : atlas.Deeper outer inner :=
  hinner.of_subset hmiddle.path

/-- Fewer identities are off the path of the inner panel. -/
theorem Deeper.idsOffPath_lt {outer inner : Sketch} (h : atlas.Deeper outer inner) :
    atlas.idsOffPath inner.spec.path < atlas.idsOffPath outer.spec.path := by
  obtain ⟨id, hknown, _, hmem, hnew⟩ := h.source
  refine countP_lt_countP ?_ hknown (by simpa using hmem) (by simpa using hnew)
  intro other _ hother
  rw [decide_eq_true_eq] at hother ⊢
  exact fun hold => hother (h.path hold)

/-- A panel that shows what is on its path and one inside it show different entries. -/
theorem Deeper.sourceId_ne {outer inner : Sketch} (h : atlas.Deeper outer inner) {id : String}
    (hsource : outer.sourceId = some id) (hmem : id ∈ outer.spec.path) :
    outer.sourceId ≠ inner.sourceId := by
  obtain ⟨new, _, hnew, _, hoff⟩ := h.source
  rw [hsource, hnew]
  intro heq
  obtain rfl := Option.some.inj heq
  exact hoff hmem

end Atlas

namespace Site

variable {site : Site}

/-- A panel as growth makes them: it lists the fields of a known entry that is on its path. -/
def IsPanel (site : Site) (panel : Sketch) : Prop :=
  panel.spec.expand = .fields ∧
    ∃ id ∈ site.atlas.knownIds, panel.sourceId = some id ∧ id ∈ panel.spec.path

/-- The entries of the tabs are entries of the atlas. -/
theorem entry_mem_of_mem_tabsOf? {sourceId : Option String} {tabs : List Tab}
    (h : site.tabsOf? sourceId = some tabs) {tab : Tab} (htab : tab ∈ tabs) :
    tab.entry ∈ site.atlas.entries := by
  simp only [tabsOf?, Option.bind_eq_bind, Option.bind_eq_some_iff, Option.some.injEq] at h
  obtain ⟨heading, ⟨id, _, hheading⟩, slug, _, rfl⟩ := h
  rcases List.mem_cons.mp htab with rfl | htab
  · exact Atlas.mem_of_latest? hheading
  · obtain ⟨index, hindex, rfl⟩ := List.mem_mapIdx.mp htab
    exact Atlas.mem_of_mem_panelMembers (List.getElem_mem hindex)

/-- Below fields there are fields, which have nothing below them, and deeper panels. -/
theorem deeper_of_mem_fields {domId : Option String} {outer : Sketch} {sketches : List Sketch}
    (hfields : outer.spec.expand = .fields) (h : site.expand? domId outer.spec = some sketches)
    {s : Sketch} (hs : s ∈ sketches) :
    s.kind ≠ "content" ∧ s.spec.expand = .none ∨
      s.spec.expand = .fields ∧ site.atlas.Deeper outer s := by
  simp only [expand?, hfields, Option.map_eq_some_iff] at h
  obtain ⟨entry, _, rfl⟩ := h
  rcases List.mem_append.mp hs with hs | hs
  · obtain ⟨field, _, rfl⟩ := List.mem_map.mp hs
    exact Or.inl ⟨by simp [fieldSketch, sketch], rfl⟩
  · unfold memberPanels at hs
    split at hs
    · simp at hs
    · obtain ⟨⟨member, index⟩, hmember, rfl⟩ := List.mem_map.mp hs
      obtain ⟨hzip, hpath⟩ := List.mem_filter.mp hmember
      have hentry : member ∈ site.atlas.entries :=
        Atlas.mem_of_mem_panelMembers (List.fst_mem_of_mem_zipIdx hzip)
      refine Or.inr ⟨rfl, List.subset_append_left _ _, member.id, Atlas.id_mem_knownIds hentry, rfl,
        List.mem_append_right _ (List.mem_singleton_self _), by simpa using hpath⟩

/-- All panels that growth makes show known entries that are on their paths. -/
theorem isPanel_of_mem_expand? {domId : Option String} {parent : Sketch} {sketches : List Sketch}
    (h : site.expand? domId parent.spec = some sketches) {s : Sketch} (hs : s ∈ sketches)
    (hkind : s.kind = "content") : site.IsPanel s := by
  cases hexpand : parent.spec.expand with
  | none =>
    simp only [expand?, hexpand, Option.some.injEq] at h
    subst h
    simp at hs
  | rootItem =>
    simp only [expand?, hexpand, rootChildren?, Option.bind_eq_bind, Option.bind_eq_some_iff,
      Option.some.injEq] at h
    obtain ⟨entry, _, slug, _, rfl⟩ := h
    simp only [List.mem_cons, List.not_mem_nil, or_false] at hs
    rcases hs with rfl | rfl <;> simp [sketch] at hkind
  | navLinks =>
    simp only [expand?, hexpand, Option.some.injEq] at h
    subst h
    obtain ⟨_, _, rfl⟩ := List.mem_map.mp hs
    simp [navSublink, sketch] at hkind
  | container =>
    simp only [expand?, hexpand, containerChildren?, Option.bind_eq_bind, Option.bind_eq_some_iff,
      Option.some.injEq] at h
    obtain ⟨slug, _, rfl⟩ := h
    simp only [List.mem_cons, List.not_mem_nil, or_false] at hs
    rcases hs with rfl | rfl <;> simp [sketch] at hkind
  | tabs =>
    simp only [expand?, hexpand, Option.map_eq_some_iff] at h
    obtain ⟨_, _, rfl⟩ := h
    obtain ⟨_, _, rfl⟩ := List.mem_map.mp hs
    simp [tabSketch, sketch] at hkind
  | panels =>
    simp only [expand?, hexpand, Option.map_eq_some_iff] at h
    obtain ⟨tabs, htabs, rfl⟩ := h
    obtain ⟨tab, htab, rfl⟩ := List.mem_map.mp hs
    exact ⟨rfl, tab.entry.id, Atlas.id_mem_knownIds (entry_mem_of_mem_tabsOf? htabs htab), rfl,
      List.mem_append_right _ (List.mem_singleton_self _)⟩
  | fields =>
    rcases deeper_of_mem_fields hexpand h hs with ⟨hother, _⟩ | ⟨hfields, hdeeper⟩
    · exact absurd hkind hother
    · obtain ⟨id, hknown, hsource, hmem, _⟩ := hdeeper.source
      exact ⟨hfields, id, hknown, hsource, hmem⟩

/-- The children of a node are made of the sketches that it stands for. -/
theorem exists_sketches_of_childrenOf? {info child : NodeInfo} {infos : List NodeInfo}
    (h : site.childrenOf? info = some infos) (hchild : child ∈ infos) :
    ∃ sketches, site.expand? (info.attribute? Attributes.domId) info.spec = some sketches ∧
      child.toSketch ∈ sketches := by
  obtain ⟨sketches, hsketches, rfl⟩ := Option.map_eq_some_iff.mp h
  obtain ⟨index, hindex, rfl⟩ := List.mem_mapIdx.mp hchild
  exact ⟨sketches, hsketches, List.getElem_mem hindex⟩

/-- All panels below a grown node show known entries that are on their paths. -/
theorem isPanel_of_mem_below_grow {info : NodeInfo} :
    ∀ node ∈ (site.grow info).children.flatMap Node.nodes,
      node.info.kind = "content" → site.IsPanel node.info.toSketch := by
  refine forall_mem_below_grow (P := fun made => made.kind = "content" → site.IsPanel made.toSketch)
    (fun _ _ => trivial) ?_ ?_ trivial
  · intro parent infos _ h child hchild
    obtain ⟨sketches, hsketches, hmem⟩ := exists_sketches_of_childrenOf? h hchild
    exact isPanel_of_mem_expand? hsketches hmem
  · intro parent hkind
    simp [NodeInfo.placeholder, NodeInfo.child, sketch, Node.info] at hkind

/-- All panels below a grown panel are deeper. -/
theorem deeper_of_mem_below_grow {outer : NodeInfo} (houter : outer.spec.expand = .fields) :
    ∀ node ∈ (site.grow outer).children.flatMap Node.nodes, node.info.kind = "content" →
      site.atlas.Deeper outer.toSketch node.info.toSketch := by
  intro node hnode hkind
  -- Whatever is below the panel has nothing below it or a path that holds the path of the panel.
  have hall := forall_mem_below_grow
    (P := fun made => made.kind ≠ "content" ∧ made.spec.expand = .none ∨
      made.spec.expand = .fields ∧ site.atlas.Deeper outer.toSketch made.toSketch)
    (Q := fun made => made.spec.expand = .none ∨
      made.spec.expand = .fields ∧ outer.spec.path ⊆ made.spec.path)
    (fun made hmade => hmade.imp And.right fun h => ⟨h.1, h.2.path⟩) ?_ ?_
    (Or.inr ⟨houter, List.Subset.refl _⟩) node hnode
  · exact (hall.resolve_left fun h => h.1 hkind).2
  · intro parent infos hparent h child hchild
    obtain ⟨sketches, hsketches, hmem⟩ := exists_sketches_of_childrenOf? h hchild
    rcases hparent with hnone | ⟨hfields, hpath⟩
    · simp only [expand?, hnone, Option.some.injEq] at hsketches
      subst hsketches
      simp at hmem
    · exact (deeper_of_mem_fields hfields hsketches hmem).imp_right
        fun h => ⟨h.1, h.2.of_subset hpath⟩
  · intro parent
    exact Or.inl ⟨by simp [NodeInfo.placeholder, NodeInfo.child, sketch, Node.info], rfl⟩

end Site

namespace Atlas

variable {atlas : Atlas}

/-- The panels that were made show known entries that are on their paths. -/
theorem isPanel_of_mem_made {node panel : Node} (hpanel : panel ∈ atlas.made node)
    (hkind : panel.info.kind = "content") :
    (atlas.site node.freshMark).IsPanel panel.info.toSketch := by
  obtain ⟨info, _, hbelow⟩ := exists_pending_of_mem_made hpanel
  exact Site.isPanel_of_mem_below_grow panel hbelow hkind

/-- A panel that lies in one that was made is deeper. -/
theorem deeper_of_mem_made {node outer inner : Node} (houter : outer ∈ atlas.made node)
    (houterKind : outer.info.kind = "content") (hinnerKind : inner.info.kind = "content")
    (hbelow : inner ∈ outer.children.flatMap Node.nodes) :
    atlas.Deeper outer.info.toSketch inner.info.toSketch := by
  have hpanel := isPanel_of_mem_made houter houterKind
  obtain ⟨info, _, hmade⟩ := exists_pending_of_mem_made houter
  have hgrown : outer = (atlas.site node.freshMark).grow outer.info := by
    have hnode : outer ∈ ((atlas.site node.freshMark).grow info).nodes := by
      rw [Node.nodes_eq]
      exact List.mem_cons_of_mem _ hmade
    exact Site.eq_grow_of_mem_nodes_grow hnode (by simp [houterKind])
  rw [hgrown] at hbelow
  exact Site.deeper_of_mem_below_grow hpanel.1 inner hbelow hinnerKind

/-- Filling in a tree comes to an end, be it at a node at which it fails: some number of levels is
enough. Of the panels that are made and lie in one another, each has fewer identities of entries off
its path than those around it; they show different entries, and there are at most as many of them as
the entries have identities. -/
theorem materialize_nesting (atlas : Atlas) (node : Node) :
    (∃ levels, (atlas.site node.freshMark).fillWithin levels node =
      some { left := atlas.materialize node, finished := atlas.completes node }) ∧
    ∀ chain : List Node,
      (∀ panel ∈ chain, panel ∈ atlas.made node ∧ panel.info.kind = "content") →
      chain.IsChain (fun outer inner => inner ∈ outer.children.flatMap Node.nodes) →
      chain.Pairwise (fun outer inner =>
        atlas.idsOffPath inner.info.spec.path < atlas.idsOffPath outer.info.spec.path) ∧
      (∃ ids : List String, chain.map (·.info.sourceId) = ids.map some ∧ ids.Nodup ∧
        ids ⊆ atlas.knownIds) ∧
      chain.length ≤ atlas.knownIds.length := by
  constructor
  · obtain ⟨levels, hlevels⟩ := (atlas.site node.freshMark).exists_fillWithin node
    exact ⟨levels, hlevels levels (Nat.le_refl _)⟩
  intro chain hchain hnested
  have hdeeper : chain.Pairwise fun outer inner =>
      atlas.Deeper outer.info.toSketch inner.info.toSketch := by
    have : IsTrans Node fun outer inner =>
        atlas.Deeper outer.info.toSketch inner.info.toSketch := ⟨fun _ _ _ => Deeper.trans⟩
    refine List.IsChain.pairwise (hnested.imp_of_mem_imp fun outer inner houter hinner hbelow => ?_)
    exact deeper_of_mem_made (hchain outer houter).1 (hchain outer houter).2
      (hchain inner hinner).2 hbelow
  have hsource : ∀ panel ∈ chain, ∃ id ∈ atlas.knownIds, panel.info.sourceId = some id ∧
      id ∈ panel.info.spec.path := by
    intro panel hpanel
    exact (isPanel_of_mem_made (hchain panel hpanel).1 (hchain panel hpanel).2).2
  have hdistinct : (chain.map (·.info.sourceId)).Nodup := by
    rw [List.Nodup, List.pairwise_map]
    refine hdeeper.imp_of_mem fun houter _ h => ?_
    obtain ⟨id, _, hid, hmem⟩ := hsource _ houter
    exact h.sourceId_ne hid hmem
  obtain ⟨ids, hids, hknown⟩ : ∃ ids : List String, chain.map (·.info.sourceId) = ids.map some ∧
      ids ⊆ atlas.knownIds := by
    refine ⟨chain.map fun panel => panel.info.sourceId.getD "", ?_, ?_⟩
    · rw [List.map_map]
      refine List.map_congr_left fun panel hpanel => ?_
      obtain ⟨id, _, hid, _⟩ := hsource panel hpanel
      simp [hid]
    · intro id hid
      obtain ⟨panel, hpanel, rfl⟩ := List.mem_map.mp hid
      obtain ⟨id, hknown, hid, _⟩ := hsource panel hpanel
      simpa [hid] using hknown
  have hnodup : ids.Nodup := by
    rw [hids] at hdistinct
    exact hdistinct.of_map _
  refine ⟨hdeeper.imp Deeper.idsOffPath_lt, ⟨ids, hids, hnodup, hknown⟩, ?_⟩
  calc chain.length = ids.length := by simpa using congrArg List.length hids
    _ ≤ atlas.knownIds.length := (List.subperm_of_subset hnodup hknown).length_le

end Atlas

/-- The first panel among the children of a node. -/
def Site.firstPanel? (site : Site) (info : NodeInfo) : Option NodeInfo :=
  (site.childrenOf? info).bind (·.find? (·.kind = "content"))

/-- The first panel among the children of a node is a panel, and all of it grows below that node. -/
theorem Site.mem_below_grow_of_firstPanel? {site : Site} {info panel : NodeInfo}
    (h : site.firstPanel? info = some panel) :
    panel.kind = "content" ∧
      ∀ part ∈ (site.grow panel).nodes, part ∈ (site.grow info).children.flatMap Node.nodes := by
  obtain ⟨infos, hinfos, hpanel⟩ := Option.bind_eq_some_iff.mp h
  exact ⟨by simpa using List.find?_some hpanel,
    fun part => mem_below_grow hinfos (List.mem_of_find?_eq_some hpanel)⟩

namespace Atlas

/-- A pending panel of an entry of the ring, as it stands below the heading of another entry. -/
def ringPanel : NodeInfo :=
  { kind := "content"
    attributes := some { role := some "content", domId := some "panel" }
    sourceId := some "a"
    spec := { expand := .fields, sourceId := some "a", path := ["d"] }
    id := "panel"
    parentId := none }

/-- In a ring of members, panels that lie in one another are made. -/
theorem materialize_nesting_ring : ∃ outer inner : Node,
    (∀ panel ∈ [outer, inner],
      panel ∈ ring.made (.pending ringPanel) ∧ panel.info.kind = "content") ∧
    inner ∈ outer.children.flatMap Node.nodes ∧
    ring.idsOffPath inner.info.spec.path < ring.idsOffPath outer.info.spec.path ∧
    2 ≤ ring.knownIds.length := by
  set site := ring.site (Node.pending ringPanel).freshMark
  obtain ⟨inner, hpanels⟩ :
      ∃ inner, (site.firstPanel? ringPanel).bind site.firstPanel? = some inner :=
    Option.isSome_iff_exists.mp (by decide +kernel)
  obtain ⟨outer, houter, hinner⟩ := Option.bind_eq_some_iff.mp hpanels
  obtain ⟨houterKind, houterBelow⟩ := Site.mem_below_grow_of_firstPanel? houter
  obtain ⟨hinnerKind, hinnerBelow⟩ := Site.mem_below_grow_of_firstPanel? hinner
  have hnested : site.grow inner ∈ (site.grow outer).children.flatMap Node.nodes := by
    refine hinnerBelow _ ?_
    rw [Node.nodes_eq]
    exact List.mem_cons_self
  have hgrown : ring.materialize (.pending ringPanel) = site.grow ringPanel := rfl
  have hmade : ∀ panel ∈ [site.grow outer, site.grow inner],
      panel ∈ ring.made (.pending ringPanel) ∧ panel.info.kind = "content" := by
    have hpart : ∀ part ∈ (site.grow outer).nodes, part ∈ ring.made (.pending ringPanel) := by
      intro part hpart
      refine mem_made_of_mem_grow ?_ (houterBelow part hpart)
      rw [hgrown, Node.nodes_eq]
      exact List.mem_cons_of_mem _ (houterBelow part hpart)
    rw [Node.nodes_eq, List.forall_mem_cons] at hpart
    simp only [List.forall_mem_cons, Site.info_grow]
    exact ⟨⟨hpart.1, houterKind⟩, ⟨hpart.2 _ hnested, hinnerKind⟩, List.forall_mem_nil _⟩
  obtain ⟨hless, _, hlength⟩ := (materialize_nesting ring (.pending ringPanel)).2
    [site.grow outer, site.grow inner] hmade (by simpa using hnested)
  exact ⟨site.grow outer, site.grow inner, hmade, hnested, by simpa using hless, hlength⟩

end Atlas

end DocAtlas
