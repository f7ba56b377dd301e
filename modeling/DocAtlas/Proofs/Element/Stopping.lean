import DocAtlas.Proofs.Element.Nesting

/-!
# Where filling in stops

Filling in a tree goes through it in pre-order and fails at the first pending node that lacks
attributes which its children read. What comes before that node is complete, and the node itself and
what comes after it are as they were given. If there is no such node, the whole tree becomes complete.

Nodes are told apart by their addresses, which say at which place to go on from child to child. Pre-order
is the lexicographic order of addresses. In a filled tree an address leads to a given node, filled in or
not reached, or to a node that has grown from its own information.
-/

namespace DocAtlas

open DocAtlas.Element

namespace Element.Node

/-- The node at an address, which says at which place to go on from child to child. -/
def subtree? (node : Node) : List ℕ → Option Node
  | [] => some node
  | place :: rest => node.children[place]?.bind fun child => child.subtree? rest

/-- An address leads through a child. -/
theorem subtree?_cons_eq_some_iff {node part : Node} {place : ℕ} {rest : List ℕ} :
    node.subtree? (place :: rest) = some part ↔
      ∃ child, node.children[place]? = some child ∧ child.subtree? rest = some part :=
  Option.bind_eq_some_iff

end Element.Node

namespace Site

variable {site : Site}

/-! ## Grown trees -/

/-- A placeholder has grown from its own information, as it asks for no children. -/
theorem grow_placeholder (site : Site) (info : NodeInfo) :
    site.grow (info.placeholder site.mark).info = info.placeholder site.mark := by
  have hchildren : site.childrenOf? (info.placeholder site.mark).info = some [] := rfl
  rw [grow_eq_of_some hchildren]
  rfl

/-- The children of a grown tree have grown from their own information. -/
theorem exists_eq_grow_of_mem_children {info : NodeInfo} {child : Node}
    (h : child ∈ (site.grow info).children) : ∃ made, child = site.grow made := by
  cases hchildren : site.childrenOf? info with
  | none =>
    rw [grow_eq_of_none hchildren] at h
    obtain rfl := List.mem_singleton.mp h
    exact ⟨_, (grow_placeholder site info).symm⟩
  | some infos =>
    rw [grow_eq_of_some hchildren] at h
    obtain ⟨made, _, rfl⟩ := List.mem_map.mp h
    exact ⟨made, rfl⟩

/-- Whatever stands in a grown tree has grown from its own information. -/
theorem eq_grow_of_subtree?_grow {info : NodeInfo} {address : List ℕ} {part : Node}
    (h : (site.grow info).subtree? address = some part) : part = site.grow part.info := by
  induction address generalizing info with
  | nil =>
    obtain rfl := Option.some.inj h
    rw [info_grow]
  | cons place rest ih =>
    obtain ⟨child, hchild, hpart⟩ := Node.subtree?_cons_eq_some_iff.mp h
    obtain ⟨made, rfl⟩ := exists_eq_grow_of_mem_children (List.mem_of_getElem? hchild)
    exact ih hpart

/-- A grown tree has its children. -/
theorem isResolved_grow (site : Site) (info : NodeInfo) : (site.grow info).isResolved = true := by
  cases h : site.childrenOf? info with
  | none => rw [grow_eq_of_none h, Node.isResolved]
  | some infos => rw [grow_eq_of_some h, Node.isResolved]

/-! ## Trees of a forest -/

/-- A pending node at which filling in fails is left as it is. -/
theorem fill_pending_of_stops {info : NodeInfo} (h : site.stops info = true) :
    site.fill (.pending info) = { left := .pending info, finished := false } := by
  rw [fill, if_pos h]

/-- Any other pending node grows. -/
theorem fill_pending_of_not_stops {info : NodeInfo} (h : site.stops info = false) :
    site.fill (.pending info) = { left := site.grow info, finished := true } := by
  rw [fill, h]
  rfl

/-- Filling in a forest gets to its end, or it fails in one of the trees: those before it are filled in
then, and those behind it are as they were. -/
theorem fillAll_cases (site : Site) (nodes : List Node) :
    ((∀ node ∈ nodes, (site.fill node).finished = true) ∧
      site.fillAll nodes =
        { left := nodes.map fun node => (site.fill node).left, finished := true }) ∨
    ∃ before node after, nodes = before ++ node :: after ∧
      (∀ earlier ∈ before, (site.fill earlier).finished = true) ∧
      (site.fill node).finished = false ∧
      site.fillAll nodes =
        { left := before.map (fun earlier => (site.fill earlier).left) ++
            (site.fill node).left :: after
          finished := false } := by
  induction nodes with
  | nil => exact Or.inl ⟨List.forall_mem_nil _, rfl⟩
  | cons first rest ih =>
    rw [fillAll]
    cases hfirst : (site.fill first).finished with
    | false => exact Or.inr ⟨[], first, rest, rfl, List.forall_mem_nil _, hfirst, rfl⟩
    | true =>
      rcases ih with ⟨hall, hrest⟩ | ⟨before, node, after, rfl, hbefore, hnode, hrest⟩
      · refine Or.inl ⟨List.forall_mem_cons.mpr ⟨hfirst, hall⟩, ?_⟩
        rw [hrest]
        rfl
      · refine Or.inr ⟨first :: before, node, after, rfl,
          List.forall_mem_cons.mpr ⟨hfirst, hbefore⟩, hnode, ?_⟩
        rw [hrest]
        rfl

/-- At each place of a filled forest stands the given tree, filled in or as it was. -/
theorem getElem?_left_fillAll (site : Site) (nodes : List Node) (place : ℕ) :
    (site.fillAll nodes).left[place]? = nodes[place]?.map (fun node => (site.fill node).left) ∨
      (site.fillAll nodes).left[place]? = nodes[place]? := by
  induction nodes generalizing place with
  | nil => exact Or.inr rfl
  | cons first rest ih =>
    rw [fillAll]
    cases (site.fill first).finished with
    | false =>
      cases place with
      | zero => exact Or.inl rfl
      | succ place => exact Or.inr rfl
    | true =>
      cases place with
      | zero => exact Or.inl rfl
      | succ place => exact ih place

/-- Filling in a forest leaves what its trees say. -/
theorem map_info_left_fillAll (site : Site) (nodes : List Node) :
    (site.fillAll nodes).left.map Node.info = nodes.map Node.info := by
  refine List.ext_getElem? fun place => ?_
  rw [List.getElem?_map, List.getElem?_map]
  rcases getElem?_left_fillAll site nodes place with hfilled | hsame
  · rw [hfilled, Option.map_map]
    exact congrArg (Option.map · _) (funext fun node => info_fill site node)
  · rw [hsame]

/-! ## Given nodes and grown ones -/

/-- A given node is at its address, filled in or as it was. -/
theorem exists_subtree?_fill {node given : Node} {address : List ℕ}
    (h : node.subtree? address = some given) :
    ∃ kept, (site.fill node).left.subtree? address = some kept ∧
      (kept = (site.fill given).left ∨ kept = given) := by
  induction address generalizing node with
  | nil =>
    obtain rfl := Option.some.inj h
    exact ⟨_, rfl, Or.inl rfl⟩
  | cons place rest ih =>
    obtain ⟨child, hchild, hgiven⟩ := Node.subtree?_cons_eq_some_iff.mp h
    cases node with
    | pending info => cases hchild
    | resolved info children =>
      have hplace : children[place]? = some child := hchild
      rcases getElem?_left_fillAll site children place with hfilled | hsame
      · obtain ⟨kept, hkept, heq⟩ := ih hgiven
        rw [hplace, Option.map_some] at hfilled
        exact ⟨kept, Node.subtree?_cons_eq_some_iff.mpr ⟨_, hfilled, hkept⟩, heq⟩
      · rw [hplace] at hsame
        exact ⟨given, Node.subtree?_cons_eq_some_iff.mpr ⟨_, hsame, hgiven⟩, Or.inr rfl⟩

/-- What stands in a filled tree is a given node, filled in or as it was, or it has grown from its own
information. -/
theorem of_subtree?_fill {node part : Node} {address : List ℕ}
    (h : (site.fill node).left.subtree? address = some part) :
    (∃ given, node.subtree? address = some given ∧
      (part = (site.fill given).left ∨ part = given)) ∨ part = site.grow part.info := by
  induction address generalizing node with
  | nil =>
    obtain rfl := Option.some.inj h
    exact Or.inl ⟨node, rfl, Or.inl rfl⟩
  | cons place rest ih =>
    obtain ⟨child, hchild, hpart⟩ := Node.subtree?_cons_eq_some_iff.mp h
    cases node with
    | pending info =>
      cases hstops : site.stops info with
      | true =>
        rw [fill_pending_of_stops hstops] at hchild
        cases hchild
      | false =>
        rw [fill_pending_of_not_stops hstops] at h
        exact Or.inr (eq_grow_of_subtree?_grow h)
    | resolved info children =>
      have hplace : (site.fillAll children).left[place]? = some child := hchild
      rcases getElem?_left_fillAll site children place with hfilled | hsame
      · rw [hfilled] at hplace
        obtain ⟨given, hgiven, rfl⟩ := Option.map_eq_some_iff.mp hplace
        refine (ih hpart).imp_left fun hpart => ?_
        obtain ⟨inner, hinner, heq⟩ := hpart
        exact ⟨inner, Node.subtree?_cons_eq_some_iff.mpr ⟨given, hgiven, hinner⟩, heq⟩
      · rw [hsame] at hplace
        exact Or.inl ⟨part, Node.subtree?_cons_eq_some_iff.mpr ⟨child, hplace, hpart⟩, Or.inr rfl⟩

/-- A node without given children that has them in the end has grown. -/
theorem eq_grow_of_isResolved {info : NodeInfo} {part : Node}
    (h : part = (site.fill (.pending info)).left ∨ part = .pending info)
    (hresolved : part.isResolved = true) : part = site.grow part.info := by
  rcases h with rfl | rfl
  · cases hstops : site.stops info with
    | true =>
      rw [fill_pending_of_stops hstops] at hresolved
      cases hresolved
    | false => rw [fill_pending_of_not_stops hstops, info_grow]
  · cases hresolved

/-! ## The end of filling in -/

mutual

/-- Filling in a tree gets to its end if it fails at none of the pending nodes. -/
theorem finished_fill_iff (site : Site) : (node : Node) →
    ((site.fill node).finished = true ↔
      ∀ info, .pending info ∈ node.nodes → site.stops info = false)
  | .pending info => by
    cases hstops : site.stops info with
    | true => simp [fill_pending_of_stops hstops, Node.nodes, hstops]
    | false => simp [fill_pending_of_not_stops hstops, Node.nodes, hstops]
  | .resolved info children => by
    rw [fill, Filling.map, finished_fillAll_iff site children, Node.nodes]
    simp

/-- Filling in a forest gets to its end if it fails at none of the pending nodes. -/
theorem finished_fillAll_iff (site : Site) : (nodes : List Node) →
    ((site.fillAll nodes).finished = true ↔
      ∀ info, .pending info ∈ Node.nodesAll nodes → site.stops info = false)
  | [] => by simp [fillAll, Node.nodesAll]
  | node :: rest => by
    have hfirst := finished_fill_iff site node
    have hrest := finished_fillAll_iff site rest
    rw [fillAll, Node.nodesAll]
    simp only [List.mem_append, or_imp, forall_and, ← hfirst, ← hrest]
    cases (site.fill node).finished <;> simp [Filling.map]

end

/-- If filling in gets to its end, everything has its children. -/
theorem isResolved_of_finished {node part : Node} {address : List ℕ}
    (hfinished : (site.fill node).finished = true)
    (h : (site.fill node).left.subtree? address = some part) : part.isResolved = true := by
  induction address generalizing node with
  | nil =>
    obtain rfl := Option.some.inj h
    cases node with
    | resolved info children => rfl
    | pending info =>
      have hstops := (finished_fill_iff site _).mp hfinished info (List.mem_singleton_self _)
      rw [fill_pending_of_not_stops hstops]
      exact isResolved_grow site info
  | cons place rest ih =>
    cases node with
    | pending info =>
      have hstops := (finished_fill_iff site _).mp hfinished info (List.mem_singleton_self _)
      rw [fill_pending_of_not_stops hstops] at h
      rw [eq_grow_of_subtree?_grow h]
      exact isResolved_grow site _
    | resolved info children =>
      obtain ⟨child, hchild, hpart⟩ := Node.subtree?_cons_eq_some_iff.mp h
      rw [fill] at hchild hfinished
      rcases fillAll_cases site children with ⟨hall, heq⟩ | ⟨before, node, after, -, -, -, heq⟩
      · rw [heq, Filling.map, Node.children, List.getElem?_map] at hchild
        obtain ⟨given, hgiven, rfl⟩ := Option.map_eq_some_iff.mp hchild
        exact ih (hall given (List.mem_of_getElem? hgiven)) hpart
      · rw [heq, Filling.map] at hfinished
        cases hfinished

/-- Filling in a tree fails at an address: the node there is pending and lacks attributes that its
children read, everything before it in pre-order has its children, and it and everything after it
are as they were. -/
structure StopsAt (site : Site) (node : Node) (address : List ℕ) : Prop where
  stop : ∃ info, node.subtree? address = some (.pending info) ∧ site.stops info = true
  before : ∀ earlier < address, ∀ part, (site.fill node).left.subtree? earlier = some part →
    part.isResolved = true
  after : ∀ later ≥ address, (site.fill node).left.subtree? later = node.subtree? later

/-- If filling in a forest fails in a tree, filling in the node above fails there too. -/
theorem StopsAt.child {info : NodeInfo} {before after : List Node} {node : Node} {address : List ℕ}
    (h : site.StopsAt node address)
    (hbefore : ∀ earlier ∈ before, (site.fill earlier).finished = true)
    (heq : site.fillAll (before ++ node :: after) =
      { left := before.map (fun earlier => (site.fill earlier).left) ++ (site.fill node).left :: after
        finished := false }) :
    site.StopsAt (.resolved info (before ++ node :: after)) (before.length :: address) := by
  have hchildren : (site.fill (.resolved info (before ++ node :: after))).left.children =
      before.map (fun earlier => (site.fill earlier).left) ++ (site.fill node).left :: after := by
    rw [fill, heq]
    rfl
  have hplace {trees rest : List Node} (tree : Node) (hlength : trees.length = before.length) :
      (trees ++ tree :: rest)[before.length]? = some tree := by
    rw [← hlength, List.getElem?_append_right (Nat.le_refl _), Nat.sub_self]
    rfl
  have hlength : (before.map fun earlier => (site.fill earlier).left).length = before.length :=
    List.length_map _
  constructor
  · obtain ⟨stopped, hstopped, hstops⟩ := h.stop
    exact ⟨stopped, Node.subtree?_cons_eq_some_iff.mpr ⟨node, hplace node rfl, hstopped⟩, hstops⟩
  · intro earlier hearlier part hpart
    cases earlier with
    | nil =>
      obtain rfl := Option.some.inj hpart
      rfl
    | cons place rest =>
      obtain ⟨child, hchild, hpart⟩ := Node.subtree?_cons_eq_some_iff.mp hpart
      rw [hchildren] at hchild
      rcases List.cons_lt_cons_iff.mp hearlier with hless | ⟨rfl, hless⟩
      · rw [List.getElem?_append_left (by omega), List.getElem?_map] at hchild
        obtain ⟨given, hgiven, rfl⟩ := Option.map_eq_some_iff.mp hchild
        exact isResolved_of_finished (hbefore given (List.mem_of_getElem? hgiven)) hpart
      · rw [hplace _ hlength] at hchild
        obtain rfl := Option.some.inj hchild
        exact h.before rest hless part hpart
  · intro later hlater
    cases later with
    | nil => exact absurd (List.nil_lt_cons _ _) (not_lt.mpr hlater)
    | cons place rest =>
      rw [Node.subtree?, Node.subtree?, hchildren, Node.children]
      rcases lt_trichotomy place before.length with hless | rfl | hmore
      · exact absurd (List.cons_lt_cons_iff.mpr (Or.inl hless)) (not_lt.mpr hlater)
      · rw [hplace _ hlength, hplace node rfl, Option.bind_some, Option.bind_some]
        refine h.after rest (not_lt.mp fun hless => not_lt.mpr hlater ?_)
        exact List.cons_lt_cons_iff.mpr (Or.inr ⟨rfl, hless⟩)
      · obtain ⟨further, rfl⟩ := Nat.exists_eq_add_of_lt hmore
        rw [List.getElem?_append_right (by omega), List.getElem?_append_right (by omega), hlength,
          Nat.add_assoc, Nat.add_sub_cancel_left, List.getElem?_cons_succ, List.getElem?_cons_succ]

/-- If filling in a tree does not get to its end, it fails at some address. -/
theorem exists_stopsAt (site : Site) : (node : Node) → (site.fill node).finished = false →
    ∃ address, site.StopsAt node address
  | .pending info, h => by
    cases hstops : site.stops info with
    | false =>
      rw [fill_pending_of_not_stops hstops] at h
      cases h
    | true =>
      refine ⟨[], ⟨info, rfl, hstops⟩, fun earlier hless => absurd hless (List.not_lt_nil _), ?_⟩
      rw [fill_pending_of_stops hstops]
      exact fun _ _ => rfl
  | .resolved info children, h => by
    rw [fill, Filling.map] at h
    rcases fillAll_cases site children with ⟨-, heq⟩ | ⟨before, node, after, rfl, hbefore, hnode, heq⟩
    · rw [heq] at h
      cases h
    · have hless : sizeOf node < sizeOf (before ++ node :: after) :=
        List.sizeOf_lt_of_mem (List.mem_append_right _ List.mem_cons_self)
      obtain ⟨address, haddress⟩ := exists_stopsAt site node hnode
      exact ⟨_, haddress.child hbefore heq⟩

/-! ## Filling in again -/

mutual

/-- A tree in which all children are given stays as it is. -/
theorem fill_eq_self (site : Site) : (node : Node) →
    (∀ address part, node.subtree? address = some part → part.isResolved = true) →
      site.fill node = { left := node, finished := true }
  | .pending info, h => by
    have hroot := h [] _ rfl
    cases hroot
  | .resolved info children, h => by
    rw [fill, fillAll_eq_self site children]
    · rfl
    intro child hchild address part hpart
    obtain ⟨place, hplace⟩ := List.mem_iff_getElem?.mp hchild
    exact h (place :: address) part (Node.subtree?_cons_eq_some_iff.mpr ⟨child, hplace, hpart⟩)

/-- A forest in which all children are given stays as it is. -/
theorem fillAll_eq_self (site : Site) : (nodes : List Node) →
    (∀ node ∈ nodes, ∀ address part, node.subtree? address = some part →
      part.isResolved = true) → site.fillAll nodes = { left := nodes, finished := true }
  | [], _ => rfl
  | node :: rest, h => by
    rw [fillAll, fill_eq_self site node (h node List.mem_cons_self),
      fillAll_eq_self site rest fun other hother => h other (List.mem_cons_of_mem _ hother)]
    rfl

end

mutual

/-- Filling in what is left of a tree changes nothing and ends in the same way. -/
theorem fill_left_fill {site other : Site} (hother : ∀ info, other.stops info = site.stops info) :
    (node : Node) → other.fill (site.fill node).left = site.fill node
  | .pending info => by
    cases hstops : site.stops info with
    | true =>
      rw [fill_pending_of_stops hstops, fill_pending_of_stops ((hother info).trans hstops)]
    | false =>
      rw [fill_pending_of_not_stops hstops]
      refine fill_eq_self other _ fun address part hpart => ?_
      rw [eq_grow_of_subtree?_grow hpart]
      exact isResolved_grow site _
  | .resolved info children => by
    rw [fill, Filling.map, fill, fillAll_left_fillAll hother children]
    rfl

/-- Filling in what is left of a forest changes nothing and ends in the same way. -/
theorem fillAll_left_fillAll {site other : Site}
    (hother : ∀ info, other.stops info = site.stops info) : (nodes : List Node) →
      other.fillAll (site.fillAll nodes).left = site.fillAll nodes
  | [] => rfl
  | node :: rest => by
    have hnode := fill_left_fill hother node
    cases hfinished : (site.fill node).finished with
    | false =>
      have hnodes : site.fillAll (node :: rest) =
          { left := (site.fill node).left :: rest, finished := false } := by
        rw [fillAll, hfinished]
        rfl
      rw [hnodes, fillAll, hnode, hfinished]
      rfl
    | true =>
      have hnodes : site.fillAll (node :: rest) =
          (site.fillAll rest).map ((site.fill node).left :: ·) := by
        rw [fillAll, hfinished]
        rfl
      rw [hnodes, Filling.map, fillAll, hnode, hfinished, fillAll_left_fillAll hother rest]
      rfl

end

end Site

end DocAtlas
