import DocAtlas.Proofs.Element.Layout
import DocAtlas.Proofs.Page.ReadBack
import Mathlib.Data.List.Perm.Basic

/-!
# Every node is rendered once

The page of a forest has the navigation links of all roots in one place and the containers in
another. In a forest that is laid out these are all children of the roots, so no node below a root
is left out or rendered twice. Both places are read back by themselves; what stands around them is
the same for all forests.
-/

namespace DocAtlas

open DocAtlas.Element

namespace Page

section

variable {atlas : Atlas} {forest : List Node} (h : atlas.LaidOut forest)

include h

/-- The navigation link and the container of a root are all its children. -/
theorem filter_append_filter_children {root : Node} (hroot : root ∈ forest) :
    root.children.filter (·.info.kind = "nav-link") ++
      root.children.filter (·.info.kind = "container") = root.children := by
  have hkind : root.info.kind = "root-item" := by
    have hmem := List.mem_map_of_mem (f := fun root => (root.info.kind, root.info.sourceId)) hroot
    rw [h.roots] at hmem
    obtain ⟨heading, _, heq⟩ := List.mem_map.mp hmem
    exact (congrArg Prod.fst heq).symm
  have hnode : root ∈ Node.nodesAll forest := by
    rw [Node.nodesAll_eq_flatMap, List.mem_flatMap]
    exact ⟨root, hroot, by rw [Node.nodes_eq]; exact List.mem_cons_self⟩
  have hkinds := (h.laid root hnode).kinds.kinds_of_rootItem hkind
  obtain ⟨link, rest, hchildren, hlink, hrest⟩ := List.map_eq_cons_iff.mp hkinds
  obtain ⟨container, _, rfl, hcontainer, hnil⟩ := List.map_eq_cons_iff.mp hrest
  obtain rfl := List.map_eq_nil_iff.mp hnil
  simp [hchildren, hlink, hcontainer]

/-- The navigation links and the containers of a forest are the children of its roots, each once. -/
theorem perm_childrenOfKind : (childrenOfKind forest "nav-link" ++
    childrenOfKind forest "container").Perm (forest.flatMap Node.children) := by
  have hchildren : (forest.flatMap fun root => root.children.filter (·.info.kind = "nav-link") ++
      root.children.filter (·.info.kind = "container")) = forest.flatMap Node.children :=
    List.flatMap_congr fun root hroot => filter_append_filter_children h hroot
  rw [← hchildren]
  exact List.flatMap_append_perm forest _ _

/-- Nodes below the roots have attributes. -/
theorem isSome_attributes_of_mem_children {nodes : List Node}
    (hnodes : ∀ node ∈ nodes, node ∈ forest.flatMap Node.children) :
    ∀ below ∈ Node.nodesAll nodes, below.info.attributes.isSome := by
  intro below hbelow
  rw [Node.nodesAll_eq_flatMap, List.mem_flatMap] at hbelow
  obtain ⟨node, hnode, hbelow⟩ := hbelow
  obtain ⟨root, hroot, hchild⟩ := List.mem_flatMap.mp (hnodes node hnode)
  have hmem : below ∈ Node.nodesAll forest := by
    rw [Node.nodesAll_eq_flatMap, List.mem_flatMap]
    refine ⟨root, hroot, ?_⟩
    rw [Node.nodes_eq]
    exact List.mem_cons_of_mem _ (List.mem_flatMap.mpr ⟨node, hchild, hbelow⟩)
  exact (h.laid below hmem).attributes

end

/-- The lines of navigation links and of containers are read back to elements that show all nodes of
a forest below its roots and carry their identities, each once. The links are all visible, and of
the containers all but the first are hidden. -/
structure References.ReadsOnce (references : References) (forest : List Node)
    (links containers : List String) (linkElements containerElements : List Markup.Element) :
    Prop where
  links : ∃ lead, references.read? ("\n".intercalate links) = some (lead, linkElements) ∧
    IsLayout lead.toList
  containers : ∃ lead, references.read? ("\n".intercalate containers) =
    some (lead, containerElements) ∧ IsLayout lead.toList
  shownLinks : ShownAll false false (childrenOfKind forest "nav-link") linkElements
  shownContainers : ShownAll false true (childrenOfKind forest "container") containerElements
  nodes : (Node.nodesAll (childrenOfKind forest "nav-link" ++
    childrenOfKind forest "container")).Perm (Node.nodesAll (forest.flatMap Node.children))
  ids : (Markup.Element.idsAll (linkElements ++ containerElements)).Perm
    (Node.idsAll (forest.flatMap Node.children))

/-- The lines of the links and containers of a forest that is laid out are made, and show all nodes
below its roots once. -/
theorem exists_readsOnce (references : References) {atlas : Atlas} {forest : List Node}
    (h : atlas.LaidOut forest) : ∃ links containers linkElements containerElements,
      nodesLines 2 false false (childrenOfKind forest "nav-link") = .ok links ∧
      nodesLines 1 true false (childrenOfKind forest "container") = .ok containers ∧
      references.ReadsOnce forest links containers linkElements containerElements := by
  have hperm := perm_childrenOfKind h
  obtain ⟨links, hlinks, hshowsLinks⟩ := exists_shows_nodesLines references 2 false false
    (childrenOfKind forest "nav-link") (isSome_attributes_of_mem_children h fun node hnode =>
      hperm.mem_iff.mp (List.mem_append_left _ hnode))
  obtain ⟨containers, hcontainers, hshowsContainers⟩ := exists_shows_nodesLines references 1 true
    false (childrenOfKind forest "container") (isSome_attributes_of_mem_children h
      fun node hnode => hperm.mem_iff.mp (List.mem_append_right _ hnode))
  obtain ⟨lead, linkElements, hread, hlead, hall⟩ := hshowsLinks.exists_read?
  obtain ⟨lead', containerElements, hread', hlead', hall'⟩ := hshowsContainers.exists_read?
  refine ⟨links, containers, linkElements, containerElements, hlinks, hcontainers,
    ⟨lead, hread, hlead⟩, ⟨lead', hread', hlead'⟩, hall, hall', ?_, ?_⟩
  · rw [Node.nodesAll_eq_flatMap, Node.nodesAll_eq_flatMap]
    exact hperm.flatMap_right _
  · rw [Markup.Element.idsAll_eq_flatMap, List.flatMap_append,
      ← Markup.Element.idsAll_eq_flatMap, ← Markup.Element.idsAll_eq_flatMap, hall.idsAll_eq,
      hall'.idsAll_eq, Node.idsAll_eq_flatMap, Node.idsAll_eq_flatMap, Node.idsAll_eq_flatMap,
      ← List.flatMap_append]
    exact hperm.flatMap_right _

/-- A page has the lines of the links and of the containers among others that are the same for all
forests. -/
theorem exists_html_eq (title : String) (settings : PageSettings String) :
    ∃ head between after : List String, ∀ {forest : List Node} {links containers : List String},
      nodesLines 2 false false (childrenOfKind forest "nav-link") = .ok links →
      nodesLines 1 true false (childrenOfKind forest "container") = .ok containers →
        html title settings forest =
          "\n".intercalate (head ++ links ++ between ++ containers ++ after) := by
  refine ⟨headLines title settings, ["  </ul>", "</header>", "<main data-role=\"main\">"],
    ["</main>", "<script>"] ++ script ++ ["</script>", "</body>", "</html>", ""], ?_⟩
  intro forest links containers hlinks hcontainers
  rw [html, pageLines, hlinks, hcontainers]
  simp only [List.append_assoc]
  rfl

/-- The lines of a node are read back to the element of the node, whatever texts the node and those
below it hold. The page of a forest has two places for nodes, and reading both back gives every node
below a root once. -/
theorem html_readBack (references : References) :
    (∀ (depth : ℕ) (hidden : Bool) (node : Node),
      (∀ below ∈ node.nodes, below.info.attributes.isSome) →
        ∃ lines lead element, nodeLines depth hidden node = .ok lines ∧
          references.read? ("\n".intercalate lines) = some (lead, [element]) ∧
          IsLayout lead.toList ∧ ShownAs hidden node element ∧ element.ids = node.ids) ∧
    ∀ (title : String) (settings : PageSettings String), ∃ head between after : List String,
      ∀ (atlas : Atlas) (supply : ℕ → String),
        ∀ forest ∈ [atlas.forest, Node.numberAll supply atlas.forest],
          ∃ links containers linkElements containerElements,
            html title settings forest =
              "\n".intercalate (head ++ links ++ between ++ containers ++ after) ∧
            references.ReadsOnce forest links containers linkElements containerElements := by
  constructor
  · intro depth hidden node hattributes
    obtain ⟨lines, hlines, hshows⟩ :=
      exists_shows_nodeLines references depth hidden node hattributes
    obtain ⟨lead, _, hread, hlead, element, rfl, hshown⟩ := hshows.exists_read?
    exact ⟨lines, lead, element, hlines, hread, hlead, hshown, hshown.ids_eq⟩
  · intro title settings
    obtain ⟨head, between, after, hhtml⟩ := exists_html_eq title settings
    refine ⟨head, between, after, ?_⟩
    intro atlas supply forest hforest
    have hlaid : atlas.LaidOut forest := by
      rcases List.mem_pair.mp hforest with rfl | rfl
      · exact atlas.laidOut_forest
      · exact atlas.laidOut_forest.numberAll supply
    obtain ⟨links, containers, linkElements, containerElements, hlinks, hcontainers, hreads⟩ :=
      exists_readsOnce references hlaid
    exact ⟨links, containers, linkElements, containerElements, hhtml hlinks hcontainers, hreads⟩

/-- Texts that look like markup stay texts: a panel, behind the first one of a wrapper, whose only
field is an example. -/
theorem html_readBack_lookalikes :
    let field : Node := .pending
      { kind := "field", id := "\" hidden data-role=\"x", parentId := none
        attributes := some { value := some "</pre><script>&amp;'", subGroup := some "example" } }
    let panel (id : String) (children : List Node) : Node := .resolved
      { kind := "content", id, parentId := none, attributes := some { group := some "a > b & c" } }
      children
    let wrapper : Node := .resolved
      { kind := "content-wrapper", id := "\n<&lt;>", parentId := none, attributes := some {} }
      [panel "" [], panel "=" [field]]
    ∃ lines lead element, nodeLines 0 false wrapper = .ok lines ∧
      References.plain.read? ("\n".intercalate lines) = some (lead, [element]) ∧
      IsLayout lead.toList ∧ ShownAs false wrapper element ∧
      element.ids = ["\n<&lt;>", "", "=", "\" hidden data-role=\"x"] :=
  (html_readBack References.plain).1 0 false _ (by decide)

end Page

end DocAtlas
