import DocAtlas.Element.Forest

/-!
# Grown trees

The nodes of a tree are listed in pre-order. A tree that grows from a node has the children that
the node's specification stands for, each grown in turn, so what holds of a node and passes to the
children that are made for it holds of every node of the tree. Without the identities of its nodes
a tree is determined by the sketch that it grows from.
-/

namespace DocAtlas

namespace Element.Node

mutual

/-- The nodes of a tree in pre-order. -/
def nodes : Node → List Node
  | pending info => [pending info]
  | resolved info children => resolved info children :: nodesAll children

/-- The nodes of a forest in pre-order. -/
def nodesAll : List Node → List Node
  | [] => []
  | node :: rest => node.nodes ++ nodesAll rest

end

/-- The nodes of a forest are those of its trees, one after the other. -/
theorem nodesAll_eq_flatMap (forest : List Node) : nodesAll forest = forest.flatMap nodes := by
  induction forest with
  | nil => rfl
  | cons node rest ih => rw [nodesAll, ih, List.flatMap_cons]

/-- A tree comes before everything below it. -/
theorem nodes_eq (node : Node) : node.nodes = node :: node.children.flatMap nodes := by
  cases node with
  | pending info => rfl
  | resolved info below =>
    rw [nodes, nodesAll_eq_flatMap]
    rfl

end Element.Node

namespace Site

open DocAtlas.Element

/-- A tree has the children of its node, each grown in turn. -/
theorem grow_eq_of_some {site : Site} {info : NodeInfo} {infos : List NodeInfo}
    (h : site.childrenOf? info = some infos) :
    site.grow info = .resolved info (infos.map site.grow) := by
  rw [grow]
  split
  · next hnone => simp [hnone] at h
  · next found hsome =>
    obtain rfl := Option.some.inj (hsome.symm.trans h)
    simp

/-- A tree whose children cannot be made has a placeholder. -/
theorem grow_eq_of_none {site : Site} {info : NodeInfo} (h : site.childrenOf? info = none) :
    site.grow info = .resolved info [info.placeholder site.mark] := by
  rw [grow]
  split
  · rfl
  · next found hsome => simp [hsome] at h

/-- Growing a tree keeps its node. -/
theorem info_grow (site : Site) (info : NodeInfo) : (site.grow info).info = info := by
  cases h : site.childrenOf? info with
  | none => rw [grow_eq_of_none h, Node.info]
  | some infos => rw [grow_eq_of_some h, Node.info]

/-- Making sketches the children of a node keeps the sketches. -/
theorem map_toSketch_mapIdx_child (mark : String) (info : NodeInfo) (sketches : List Sketch) :
    (sketches.mapIdx (info.child mark)).map NodeInfo.toSketch = sketches := by
  apply List.ext_getElem?
  intro index
  rw [List.getElem?_map, List.getElem?_mapIdx, Option.map_map]
  exact Option.map_id'

/-- All sketches that a specification stands for have attributes. -/
theorem attributes_isSome_of_mem_expand? {site : Site} {domId : Option String} {spec : Spec}
    {sketches : List Sketch} (h : site.expand? domId spec = some sketches) {s : Sketch}
    (hs : s ∈ sketches) : s.attributes.isSome := by
  obtain ⟨expand, sourceId, group, path⟩ := spec
  cases expand with
  | none =>
    obtain rfl := Option.some.inj h
    cases hs
  | rootItem =>
    simp only [expand?, rootChildren?, Option.bind_eq_bind, Option.bind_eq_some_iff,
      Option.some.injEq] at h
    obtain ⟨entry, _, slug, _, rfl⟩ := h
    simp only [List.mem_cons, List.not_mem_nil, or_false] at hs
    rcases hs with rfl | rfl <;> rfl
  | navLinks =>
    obtain rfl := Option.some.inj h
    obtain ⟨_, _, rfl⟩ := List.mem_map.mp hs
    rfl
  | container =>
    simp only [expand?, containerChildren?, Option.bind_eq_bind, Option.bind_eq_some_iff,
      Option.some.injEq] at h
    obtain ⟨slug, _, rfl⟩ := h
    simp only [List.mem_cons, List.not_mem_nil, or_false] at hs
    rcases hs with rfl | rfl <;> rfl
  | tabs | panels =>
    obtain ⟨_, _, rfl⟩ := Option.map_eq_some_iff.mp h
    obtain ⟨_, _, rfl⟩ := List.mem_map.mp hs
    rfl
  | fields =>
    obtain ⟨entry, _, rfl⟩ := Option.map_eq_some_iff.mp h
    rcases List.mem_append.mp hs with hs | hs
    · obtain ⟨_, _, rfl⟩ := List.mem_map.mp hs
      rfl
    · unfold memberPanels at hs
      split at hs
      · cases hs
      · obtain ⟨_, _, rfl⟩ := List.mem_map.mp hs
        rfl

/-- The children of a grown tree are grown from the sketches that its node stands for. -/
theorem children_grow {site : Site} {info : NodeInfo} {sketches : List Sketch}
    (h : site.expand? (info.attribute? Attributes.domId) info.spec = some sketches) :
    ∃ infos : List NodeInfo, (site.grow info).children = infos.map site.grow ∧
      infos.map NodeInfo.toSketch = sketches := by
  refine ⟨sketches.mapIdx (info.child site.mark), ?_, map_toSketch_mapIdx_child _ _ _⟩
  rw [grow_eq_of_some (by rw [childrenOf?, h]; rfl), Node.children]

/-- What holds of a node, and of the children and placeholders made for nodes of which it holds,
holds of all nodes of the tree. -/
theorem forall_mem_nodes_grow {site : Site} {P : NodeInfo → Prop}
    (hstep : ∀ info infos, P info → site.childrenOf? info = some infos → ∀ child ∈ infos, P child)
    (hplaceholder : ∀ info, P info → site.childrenOf? info = none →
      P (info.placeholder site.mark).info) {info : NodeInfo} (hinfo : P info) :
    ∀ node ∈ (site.grow info).nodes, P node.info := by
  induction hweight : site.atlas.weight info.spec using Nat.strongRecOn generalizing info with
  | _ weight ih =>
    intro node hnode
    rw [Node.nodes_eq, List.mem_cons] at hnode
    rcases hnode with rfl | hnode
    · rwa [info_grow]
    cases h : site.childrenOf? info with
    | none =>
      rw [grow_eq_of_none h, Node.children, List.flatMap_singleton] at hnode
      obtain rfl := List.mem_singleton.mp hnode
      exact hplaceholder info hinfo h
    | some infos =>
      rw [grow_eq_of_some h, Node.children, List.flatMap_map, List.mem_flatMap] at hnode
      obtain ⟨child, hchild, hnode⟩ := hnode
      refine ih _ ?_ (hstep info infos hinfo h child hchild) rfl node hnode
      rw [← hweight]
      exact weight_childrenOf?_lt h hchild

/-- The sketches of a tree that grows from a sketch, in pre-order. -/
def outline (site : Site) (sketch : Sketch) : List Sketch :=
  (site.grow { toSketch := sketch, id := "", parentId := none }).nodes.map (·.info.toSketch)

/-- A map with positions adds up to what its elements give if the positions do not matter. -/
theorem flatMap_mapIdx {α β γ : Type} {values : List α} {f : Nat → α → β} {g : β → List γ}
    {h : α → List γ} (heq : ∀ index, ∀ value ∈ values, g (f index value) = h value) :
    (values.mapIdx f).flatMap g = values.flatMap h := by
  induction values generalizing f with
  | nil => rfl
  | cons first rest ih =>
    rw [List.mapIdx_cons, List.flatMap_cons, List.flatMap_cons, heq 0 first List.mem_cons_self,
      ih fun index value hvalue => heq (index + 1) value (List.mem_cons_of_mem _ hvalue)]

/-- The sketches of a grown tree: its own, then those of the trees of its children. -/
theorem map_toSketch_nodes_grow {site : Site} {info : NodeInfo} {sketches : List Sketch}
    (h : site.expand? (info.attribute? Attributes.domId) info.spec = some sketches) :
    (site.grow info).nodes.map (·.info.toSketch) =
      info.toSketch :: (sketches.mapIdx (info.child site.mark)).flatMap fun child =>
        (site.grow child).nodes.map (·.info.toSketch) := by
  have hchildren : site.childrenOf? info = some (sketches.mapIdx (info.child site.mark)) := by
    rw [childrenOf?, h]
    rfl
  rw [grow_eq_of_some hchildren, Node.nodes_eq, Node.children, List.map_cons, List.map_flatMap,
    List.flatMap_map, Node.info]

/-- Trees that grow from one sketch have the same sketches, whatever their identities. -/
theorem map_toSketch_nodes_grow_congr {site : Site} {first second : NodeInfo}
    (h : first.toSketch = second.toSketch) :
    (site.grow first).nodes.map (·.info.toSketch) =
      (site.grow second).nodes.map (·.info.toSketch) := by
  induction hweight : site.atlas.weight first.spec using Nat.strongRecOn
    generalizing first second with
  | _ weight ih =>
    cases hfirst : site.expand? (first.attribute? Attributes.domId) first.spec with
    | none =>
      have hsecond := hfirst
      rw [h] at hsecond
      rw [grow_eq_of_none (by rw [childrenOf?, hfirst]; rfl),
        grow_eq_of_none (by rw [childrenOf?, hsecond]; rfl)]
      simp [Node.nodes_eq, Node.children, Node.info, NodeInfo.placeholder, NodeInfo.child, h]
    | some sketches =>
      have hsecond := hfirst
      rw [h] at hsecond
      rw [map_toSketch_nodes_grow hfirst, map_toSketch_nodes_grow hsecond, h]
      congr 1
      -- Both lists of children are compared with children that all stand at the first position.
      have hchildren (info : NodeInfo) :
          ((sketches.mapIdx (info.child site.mark)).flatMap fun child =>
            (site.grow child).nodes.map (·.info.toSketch)) =
              sketches.flatMap fun sketch =>
                (site.grow (second.child site.mark 0 sketch)).nodes.map (·.info.toSketch) := by
        refine flatMap_mapIdx fun index sketch hsketch => ?_
        refine ih _ ?_ rfl rfl
        rw [← hweight]
        exact weight_lt hfirst hsketch
      rw [hchildren first, hchildren second]

/-- A grown tree has the outline of its sketch, whatever its identities. -/
theorem outline_toSketch (site : Site) (info : NodeInfo) :
    site.outline info.toSketch = (site.grow info).nodes.map (·.info.toSketch) :=
  map_toSketch_nodes_grow_congr rfl

/-- The outline of a sketch whose children can be made: the sketch, then the outlines of the
children. -/
theorem outline_eq {site : Site} {sketch : Sketch} {sketches : List Sketch}
    (h : site.expand? (sketch.attribute? Attributes.domId) sketch.spec = some sketches) :
    site.outline sketch = sketch :: sketches.flatMap site.outline := by
  rw [outline, map_toSketch_nodes_grow h]
  congr 1
  refine flatMap_mapIdx fun index child _ => ?_
  rw [← outline_toSketch]
  rfl

end Site

end DocAtlas
