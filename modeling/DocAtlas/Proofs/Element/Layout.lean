import DocAtlas.Element.Numbering
import DocAtlas.Proofs.Element.Panels

/-!
# The layout of the forest

All trees of a forest are laid out alike. The argument is about the specifications that nodes are
made with: each asks for an entry only if the atlas has it, and for a slug only if the entry is a
heading, so its children can be made and their specifications are of the same sort. It holds
whatever the identities of the entries are, also if several entries share one, and numbering the
nodes does not change it.
-/

namespace DocAtlas

open DocAtlas.Element

namespace Element

/-- The kinds of the children of a node, by its own kind and the number of headings. A placeholder
for children that cannot be made has no place in it. -/
inductive KindScheme (headings : ℕ) : String → List String → Prop where
  | rootItem : KindScheme headings "root-item" ["nav-link", "container"]
  | navLink : KindScheme headings "nav-link" (List.replicate headings "nav-sublink")
  | navSublink : KindScheme headings "nav-sublink" []
  | container : KindScheme headings "container" ["tab-strip", "content-wrapper"]
  | tabStrip (tabs : ℕ) : KindScheme headings "tab-strip" (List.replicate tabs "tab")
  | tab : KindScheme headings "tab" []
  | contentWrapper (panels : ℕ) :
      KindScheme headings "content-wrapper" (List.replicate panels "content")
  | content (fields panels : ℕ) : KindScheme headings "content"
      (List.replicate fields "field" ++ List.replicate panels "content")
  | field : KindScheme headings "field" []

/-- A node that is laid out is no placeholder. -/
theorem KindScheme.ne_error {headings : ℕ} {kind : String} {kinds : List String}
    (h : KindScheme headings kind kinds) : kind ≠ "error" := by
  cases h <;> decide

/-- A root has a navigation link and a container. -/
theorem KindScheme.kinds_of_rootItem {headings : ℕ} {kind : String} {kinds : List String}
    (h : KindScheme headings kind kinds) (hkind : kind = "root-item") :
    kinds = ["nav-link", "container"] := by
  cases h with
  | rootItem => rfl
  | _ => simp at hkind

/-- The heading that a navigation link stands for: its group and its first module. -/
def Sketch.target (sketch : Sketch) : Option String × Option String :=
  (sketch.attribute? Attributes.group, sketch.attribute? Attributes.subGroup)

/-- A node with attributes and with the children that its kind asks for, each of which knows the
node. -/
structure Node.Laid (headings : List Entry) (node : Node) : Prop where
  attributes : node.info.attributes.isSome
  isResolved : node.isResolved = true
  kinds : KindScheme headings.length node.info.kind (node.children.map (·.info.kind))
  links : node.info.kind = "nav-link" → node.children.map (·.info.target) =
    headings.map fun heading => (some heading.group, heading.modules.head?)
  parentId : ∀ child ∈ node.children, child.info.parentId = some node.info.id

end Element

namespace Site

variable {site : Site}

/-- The source of a specification is an entry of the atlas. -/
def KnownSource (site : Site) (spec : Spec) : Prop :=
  ∃ id entry, spec.sourceId = some id ∧ site.atlas.latest? id = some entry

/-- The source of a specification is an entry of the atlas, and a heading has its identity. -/
def HeadingSource (site : Site) (spec : Spec) : Prop :=
  ∃ id entry slug, spec.sourceId = some id ∧ site.atlas.latest? id = some entry ∧
    site.slug? id = some slug

/-- The kind and the expansion of a sketch belong together, and what the expansion looks up is
there. -/
inductive Expandable (site : Site) (sketch : Sketch) : Prop where
  | rootItem (kind : sketch.kind = "root-item") (expand : sketch.spec.expand = .rootItem)
      (source : site.HeadingSource sketch.spec)
  | navLink (kind : sketch.kind = "nav-link") (expand : sketch.spec.expand = .navLinks)
  | container (kind : sketch.kind = "container") (expand : sketch.spec.expand = .container)
      (source : site.HeadingSource sketch.spec)
  | tabStrip (kind : sketch.kind = "tab-strip") (expand : sketch.spec.expand = .tabs)
      (source : site.HeadingSource sketch.spec)
  | contentWrapper (kind : sketch.kind = "content-wrapper")
      (expand : sketch.spec.expand = .panels) (source : site.HeadingSource sketch.spec)
  | content (kind : sketch.kind = "content") (expand : sketch.spec.expand = .fields)
      (source : site.KnownSource sketch.spec)
  | leaf (kind : sketch.kind ∈ ["nav-sublink", "tab", "field"])
      (expand : sketch.spec.expand = .none)

/-- A sketch with attributes whose children can be made. -/
structure Sound (site : Site) (sketch : Sketch) : Prop where
  attributes : sketch.attributes.isSome
  expandable : site.Expandable sketch

/-- The children of a sound sketch: they are sound and of the kinds that the scheme asks for. -/
structure SoundChildren (site : Site) (sketch : Sketch) (children : List Sketch) : Prop where
  sound : ∀ child ∈ children, site.Sound child
  kinds : KindScheme site.atlas.headings.length sketch.kind (children.map Sketch.kind)
  links : sketch.kind = "nav-link" → children.map Sketch.target =
    site.atlas.headings.map fun heading => (some heading.group, heading.modules.head?)

/-- The kinds of sketches that are all made in one way. -/
theorem map_kind_map {α : Type} (f : α → Sketch) {kind : String} (values : List α)
    (h : ∀ value, (f value).kind = kind) :
    (values.map f).map Sketch.kind = List.replicate values.length kind := by
  rw [List.map_map, List.map_eq_replicate_iff]
  intro value _
  exact h value

/-- The tabs of a heading exist and show entries of the atlas. -/
theorem exists_tabsOf?_of_headingSource {spec : Spec} (h : site.HeadingSource spec) :
    ∃ tabs, site.tabsOf? spec.sourceId = some tabs ∧
      ∀ tab ∈ tabs, tab.entry ∈ site.atlas.entries := by
  obtain ⟨id, entry, slug, hid, hentry, hslug⟩ := h
  rw [tabsOf?, hid]
  simp only [Option.bind_some, hentry, hslug, Option.bind_eq_bind]
  refine ⟨_, rfl, ?_⟩
  intro tab htab
  rcases List.mem_cons.mp htab with rfl | htab
  · exact Atlas.mem_of_latest? hentry
  · obtain ⟨index, hindex, rfl⟩ := List.mem_mapIdx.mp htab
    exact Atlas.mem_of_mem_panelMembers (List.getElem_mem hindex)

/-- A panel of an entry of the atlas is sound. -/
theorem sound_panel {sketch : Sketch} {entry : Entry} (hentry : entry ∈ site.atlas.entries)
    (hattributes : sketch.attributes.isSome) (hkind : sketch.kind = "content")
    (hexpand : sketch.spec.expand = .fields)
    (hsource : sketch.spec.sourceId = some entry.id) : site.Sound sketch := by
  obtain ⟨found, hfound⟩ := Atlas.exists_latest? hentry
  exact ⟨hattributes, .content hkind hexpand ⟨entry.id, found, hsource, hfound⟩⟩

section

variable {sketch : Sketch}

/-- A root has a navigation link and a container. -/
theorem exists_rootChildren? (hkind : sketch.kind = "root-item")
    (hsource : site.HeadingSource sketch.spec) :
    ∃ children, site.rootChildren? sketch.spec = some children ∧
      site.SoundChildren sketch children := by
  obtain ⟨id, entry, slug, hid, hentry, hslug⟩ := hsource
  obtain rfl := Atlas.id_of_latest? hentry
  simp only [rootChildren?, hid, Option.bind_some, hentry, hslug, Option.bind_eq_bind]
  refine ⟨_, rfl, ?_, ?_, ?_⟩
  · intro child hchild
    rcases List.mem_pair.mp hchild with rfl | rfl
    · exact ⟨rfl, .navLink rfl rfl⟩
    · exact ⟨rfl, .container rfl rfl ⟨entry.id, entry, slug, rfl, hentry, hslug⟩⟩
  · rw [hkind]
    exact .rootItem
  · simp [hkind]

/-- A navigation link has a link per heading. -/
theorem soundChildren_navLinks (hkind : sketch.kind = "nav-link") (domId : Option String) :
    site.SoundChildren sketch (site.atlas.headings.map (site.navSublink domId)) := by
  refine ⟨?_, ?_, ?_⟩
  · intro child hchild
    obtain ⟨heading, _, rfl⟩ := List.mem_map.mp hchild
    exact ⟨rfl, .leaf (by simp [navSublink, Element.sketch]) rfl⟩
  · rw [hkind, map_kind_map (site.navSublink domId) _ fun _ => rfl]
    exact .navLink
  · intro _
    rw [List.map_map]
    rfl

/-- A container has a tab strip and a wrapper of panels. -/
theorem exists_containerChildren? (hkind : sketch.kind = "container")
    (hsource : site.HeadingSource sketch.spec) :
    ∃ children, site.containerChildren? sketch.spec = some children ∧
      site.SoundChildren sketch children := by
  obtain ⟨id, entry, slug, hid, hentry, hslug⟩ := hsource
  simp only [containerChildren?, hid, Option.bind_some, hslug, Option.bind_eq_bind]
  refine ⟨_, rfl, ?_, ?_, ?_⟩
  · intro child hchild
    rcases List.mem_pair.mp hchild with rfl | rfl
    · exact ⟨rfl, .tabStrip rfl rfl ⟨id, entry, slug, rfl, hentry, hslug⟩⟩
    · exact ⟨rfl, .contentWrapper rfl rfl ⟨id, entry, slug, rfl, hentry, hslug⟩⟩
  · rw [hkind]
    exact .container
  · simp [hkind]

/-- A tab strip has tabs. -/
theorem soundChildren_tabs (hkind : sketch.kind = "tab-strip") (tabs : List Tab) :
    site.SoundChildren sketch (tabs.map (tabSketch sketch.spec)) := by
  refine ⟨?_, ?_, ?_⟩
  · intro child hchild
    obtain ⟨tab, _, rfl⟩ := List.mem_map.mp hchild
    exact ⟨rfl, .leaf (by simp [tabSketch, Element.sketch]) rfl⟩
  · rw [hkind, map_kind_map (tabSketch sketch.spec) _ fun _ => rfl]
    exact .tabStrip _
  · simp [hkind]

/-- A wrapper of panels has panels. -/
theorem soundChildren_panels (hkind : sketch.kind = "content-wrapper") {tabs : List Tab}
    (htabs : ∀ tab ∈ tabs, tab.entry ∈ site.atlas.entries) :
    site.SoundChildren sketch (tabs.map (panelSketch sketch.spec)) := by
  refine ⟨?_, ?_, ?_⟩
  · intro child hchild
    obtain ⟨tab, htab, rfl⟩ := List.mem_map.mp hchild
    exact sound_panel (htabs tab htab) rfl rfl rfl rfl
  · rw [hkind, map_kind_map (panelSketch sketch.spec) _ fun _ => rfl]
    exact .contentWrapper _
  · simp [hkind]

/-- A panel has fields and then the panels of members. -/
theorem soundChildren_fields (hkind : sketch.kind = "content") (domId : Option String)
    (entry : Entry) :
    site.SoundChildren sketch ((site.atlas.fieldsOf entry).map (fieldSketch sketch.spec.group) ++
      memberPanels site.atlas domId sketch.spec entry) := by
  have hpanels : ∀ child ∈ memberPanels site.atlas domId sketch.spec entry,
      site.Sound child ∧ child.kind = "content" := by
    intro child hchild
    unfold memberPanels at hchild
    split at hchild
    · simp at hchild
    · obtain ⟨⟨member, index⟩, hmember, rfl⟩ := List.mem_map.mp hchild
      have hzip := List.mem_of_mem_filter hmember
      have hentry : member ∈ site.atlas.entries :=
        Atlas.mem_of_mem_panelMembers (List.fst_mem_of_mem_zipIdx hzip)
      exact ⟨sound_panel hentry rfl rfl rfl rfl, rfl⟩
  refine ⟨?_, ?_, ?_⟩
  · intro child hchild
    rcases List.mem_append.mp hchild with hchild | hchild
    · obtain ⟨field, _, rfl⟩ := List.mem_map.mp hchild
      exact ⟨rfl, .leaf (by simp [fieldSketch, Element.sketch]) rfl⟩
    · exact (hpanels child hchild).1
  · rw [hkind, List.map_append, map_kind_map (fieldSketch sketch.spec.group) _ fun _ => rfl,
      List.map_eq_replicate_iff.mpr fun child hchild => (hpanels child hchild).2]
    exact .content _ _
  · simp [hkind]

/-- A leaf has no children. -/
theorem soundChildren_leaf (hkind : sketch.kind ∈ ["nav-sublink", "tab", "field"]) :
    site.SoundChildren sketch [] := by
  simp only [List.mem_cons, List.not_mem_nil, or_false] at hkind
  refine ⟨by simp, ?_, ?_⟩
  · rcases hkind with hkind | hkind | hkind <;> rw [hkind]
    · exact .navSublink
    · exact .tab
    · exact .field
  · intro hlink
    simp [hlink] at hkind

/-- The children of a sound sketch can be made and are sound. -/
theorem Sound.exists_expand? (h : site.Sound sketch) (domId : Option String) :
    ∃ children, site.expand? domId sketch.spec = some children ∧
      site.SoundChildren sketch children := by
  cases h.expandable with
  | rootItem kind expand source =>
    rw [expand?, expand]
    exact exists_rootChildren? kind source
  | navLink kind expand =>
    rw [expand?, expand]
    exact ⟨_, rfl, soundChildren_navLinks kind domId⟩
  | container kind expand source =>
    rw [expand?, expand]
    exact exists_containerChildren? kind source
  | tabStrip kind expand source =>
    obtain ⟨tabs, htabs, _⟩ := exists_tabsOf?_of_headingSource source
    rw [expand?, expand]
    simp only [htabs, Option.map_some]
    exact ⟨_, rfl, soundChildren_tabs kind tabs⟩
  | contentWrapper kind expand source =>
    obtain ⟨tabs, htabs, hentries⟩ := exists_tabsOf?_of_headingSource source
    rw [expand?, expand]
    simp only [htabs, Option.map_some]
    exact ⟨_, rfl, soundChildren_panels kind hentries⟩
  | content kind expand source =>
    obtain ⟨id, entry, hid, hentry⟩ := source
    rw [expand?, expand]
    simp only [hid, Option.bind_some, hentry, Option.map_some]
    exact ⟨_, rfl, soundChildren_fields kind domId entry⟩
  | leaf kind expand =>
    rw [expand?, expand]
    exact ⟨[], rfl, soundChildren_leaf kind⟩

end

/-- The children of a node that is made from a sound sketch: what is said of their sketches, and who
their parent is. -/
theorem Sound.exists_childrenOf? {info : NodeInfo} (h : site.Sound info.toSketch) :
    ∃ infos, site.childrenOf? info = some infos ∧
      site.SoundChildren info.toSketch (infos.map NodeInfo.toSketch) ∧
      ∀ child ∈ infos, child.parentId = some info.id := by
  obtain ⟨sketches, hexpand, hsketches⟩ :=
    h.exists_expand? (info.attribute? Attributes.domId)
  refine ⟨sketches.mapIdx (info.child site.mark), ?_, ?_, ?_⟩
  · rw [childrenOf?, hexpand]
    rfl
  · rwa [map_toSketch_mapIdx_child]
  · intro child hchild
    obtain ⟨index, _, rfl⟩ := List.mem_mapIdx.mp hchild
    rfl

/-- Every node of a tree that grows from a sound sketch is sound and laid out. -/
theorem sound_and_laid_of_mem_nodes_grow {info : NodeInfo} (h : site.Sound info.toSketch) :
    ∀ node ∈ (site.grow info).nodes,
      site.Sound node.info.toSketch ∧ node.Laid site.atlas.headings := by
  induction hweight : site.atlas.weight info.spec using Nat.strongRecOn generalizing info with
  | _ weight ih =>
    obtain ⟨infos, hinfos, hchildren, hparent⟩ := h.exists_childrenOf?
    have hgrow := grow_eq_of_some hinfos
    intro node hnode
    rw [Node.nodes_eq, List.mem_cons] at hnode
    rcases hnode with rfl | hnode
    · have hmap {α : Type} (f : Sketch → α) :
          (infos.map site.grow).map (fun child => f child.info.toSketch) =
            (infos.map NodeInfo.toSketch).map f := by
        rw [List.map_map, List.map_map]
        refine List.map_congr_left fun child _ => ?_
        exact congrArg (fun info => f info.toSketch) (info_grow site child)
      rw [hgrow]
      refine ⟨h, h.attributes, rfl, ?_, ?_, ?_⟩
      · rw [Node.children, hmap Sketch.kind]
        exact hchildren.kinds
      · intro hlink
        rw [Node.children, hmap Sketch.target]
        exact hchildren.links hlink
      · intro child hchild
        obtain ⟨found, hfound, rfl⟩ := List.mem_map.mp hchild
        rw [info_grow]
        exact hparent found hfound
    · rw [hgrow, Node.children, List.flatMap_map, List.mem_flatMap] at hnode
      obtain ⟨child, hchild, hnode⟩ := hnode
      refine ih _ ?_ (hchildren.sound child.toSketch (List.mem_map_of_mem hchild)) rfl node hnode
      rw [← hweight]
      exact weight_childrenOf?_lt hinfos hchild

/-- The root of a heading is sound. -/
theorem sound_rootInfo {atlas : Atlas} {heading : Entry} (hheading : heading ∈ atlas.headings)
    (mark : String) (index : ℕ) :
    (atlas.site mark).Sound ((atlas.site mark).rootInfo index heading).toSketch := by
  obtain ⟨found, hfound⟩ := Atlas.exists_latest? (Atlas.mem_of_mem_headings hheading)
  obtain ⟨slug, hslug⟩ := Atlas.exists_slug? hheading mark
  exact ⟨rfl, .rootItem rfl rfl ⟨heading.id, found, slug, rfl, hfound, hslug⟩⟩

end Site

namespace Element.Node

variable (supply : ℕ → String) (table : Renaming)

/-- Numbering a node changes nothing but identities. -/
theorem toSketch_numberFrom (holder : Option (String × String)) (next : ℕ) (node : Node) :
    (numberFrom supply table holder next node).1.info.toSketch = node.info.toSketch := by
  cases node <;> rfl

/-- A node that names its holder as parent, or nothing if there is no holder, names it by its new
identity after numbering. -/
theorem parentId_numberFrom {node : Node} {holder : Option (String × String)}
    (h : node.info.parentId = holder.map Prod.fst) (next : ℕ) :
    (numberFrom supply table holder next node).1.info.parentId = holder.map Prod.snd := by
  cases holder <;> cases node <;> simp_all [numberFrom, NodeInfo.renamed, info]

/-- Numbering a tree keeps whatever follows from the sketches of its nodes. -/
theorem map_toSketch_numberAllFrom {α : Type} (f : Sketch → α) (holder : Option (String × String))
    (next : ℕ) (forest : List Node) :
    (numberAllFrom supply table holder next forest).1.map (fun node => f node.info.toSketch) =
      forest.map fun node => f node.info.toSketch := by
  induction forest generalizing next with
  | nil => rfl
  | cons node rest ih =>
    rw [numberAllFrom, List.map_cons, List.map_cons, ih, toSketch_numberFrom]

/-- Nodes that name their holder as parent name it by its new identity after numbering. -/
theorem parentId_of_mem_numberAllFrom {holder : Option (String × String)} (next : ℕ)
    {forest : List Node} (h : ∀ node ∈ forest, node.info.parentId = holder.map Prod.fst) :
    ∀ node ∈ (numberAllFrom supply table holder next forest).1,
      node.info.parentId = holder.map Prod.snd := by
  induction forest generalizing next with
  | nil => simp [numberAllFrom]
  | cons first rest ih =>
    rw [List.forall_mem_cons] at h
    rw [numberAllFrom, List.forall_mem_cons]
    exact ⟨parentId_numberFrom supply table h.1 next, ih _ h.2⟩

variable {headings : List Entry}

mutual

/-- Numbering a tree keeps its layout. -/
theorem laid_of_mem_nodes_numberFrom (holder : Option (String × String)) (next : ℕ) :
    (tree : Node) → (∀ node ∈ tree.nodes, node.Laid headings) →
      ∀ node ∈ (numberFrom supply table holder next tree).1.nodes, node.Laid headings
  | .pending info, h => by
    have hlaid := (h _ List.mem_cons_self).isResolved
    simp [isResolved] at hlaid
  | .resolved info children, h => by
    rw [nodes, List.forall_mem_cons] at h
    obtain ⟨hlaid, hbelow⟩ := h
    rw [numberFrom, nodes, List.forall_mem_cons]
    constructor
    · refine ⟨hlaid.attributes, rfl, ?_, ?_, ?_⟩
      · rw [Node.children, map_toSketch_numberAllFrom supply table Sketch.kind]
        exact hlaid.kinds
      · intro hlink
        rw [Node.children, map_toSketch_numberAllFrom supply table Sketch.target]
        exact hlaid.links hlink
      · exact parentId_of_mem_numberAllFrom supply table _ hlaid.parentId
    · exact laid_of_mem_nodesAll_numberAllFrom _ _ children hbelow

/-- Numbering a forest keeps its layout. -/
theorem laid_of_mem_nodesAll_numberAllFrom (holder : Option (String × String)) (next : ℕ) :
    (forest : List Node) → (∀ node ∈ nodesAll forest, node.Laid headings) →
      ∀ node ∈ nodesAll (numberAllFrom supply table holder next forest).1, node.Laid headings
  | [], _ => by simp [numberAllFrom, nodesAll]
  | tree :: rest, h => by
    rw [nodesAll, List.forall_mem_append] at h
    rw [numberAllFrom, nodesAll, List.forall_mem_append]
    exact ⟨laid_of_mem_nodes_numberFrom holder next tree h.1,
      laid_of_mem_nodesAll_numberAllFrom holder _ rest h.2⟩

end

end Element.Node

namespace Atlas

/-- A forest with one root per heading, in which every node is laid out. -/
structure LaidOut (atlas : Atlas) (forest : List Node) : Prop where
  roots : forest.map (fun root => (root.info.kind, root.info.sourceId)) =
    atlas.headings.map fun heading => ("root-item", some heading.id)
  parentId : ∀ root ∈ forest, root.info.parentId = none
  laid : ∀ node ∈ Node.nodesAll forest, node.Laid atlas.headings
  noPlaceholder : ∀ node ∈ Node.nodesAll forest, node.info.kind ≠ "error"

/-- Every node of the forest is sound and laid out. -/
theorem sound_and_laid_of_mem_forest (atlas : Atlas) :
    ∀ node ∈ Node.nodesAll atlas.forest,
      (atlas.site "").Sound node.info.toSketch ∧ node.Laid atlas.headings := by
  intro node hnode
  rw [Node.nodesAll_eq_flatMap, forest, Site.forest, List.flatMap_map, List.mem_flatMap] at hnode
  obtain ⟨root, hroot, hnode⟩ := hnode
  obtain ⟨index, hindex, rfl⟩ := List.mem_mapIdx.mp hroot
  have hsound := Site.sound_rootInfo (List.getElem_mem hindex) "" index
  exact Site.sound_and_laid_of_mem_nodes_grow hsound node hnode

/-- The forest of an atlas is laid out. -/
theorem laidOut_forest (atlas : Atlas) : atlas.LaidOut atlas.forest := by
  have hlaid := sound_and_laid_of_mem_forest atlas
  refine ⟨?_, ?_, fun node hnode => (hlaid node hnode).2,
    fun node hnode => (hlaid node hnode).2.kinds.ne_error⟩
  · apply List.ext_getElem?
    intro index
    simp only [forest, Site.forest, List.getElem?_map, List.getElem?_mapIdx, Option.map_map]
    refine congrArg (fun f => Option.map f atlas.headings[index]?) (funext fun heading => ?_)
    simp only [Function.comp_apply, Site.info_grow]
    rfl
  · intro root hroot
    obtain ⟨info, hinfo, rfl⟩ := List.mem_map.mp hroot
    obtain ⟨index, hindex, rfl⟩ := List.mem_mapIdx.mp hinfo
    rw [Site.info_grow]
    rfl

/-- Numbering a forest keeps its layout. -/
theorem LaidOut.numberAll {atlas : Atlas} {forest : List Node} (h : atlas.LaidOut forest)
    (supply : ℕ → String) : atlas.LaidOut (Node.numberAll supply forest) := by
  have hlaid := Node.laid_of_mem_nodesAll_numberAllFrom supply
    ((Node.idsAll forest).mapIdx fun index id => (id, supply index)) none 0 forest h.laid
  refine ⟨?_, ?_, hlaid, fun node hnode => (hlaid node hnode).kinds.ne_error⟩
  · rw [Node.numberAll, Node.map_toSketch_numberAllFrom supply _
      (fun sketch => (sketch.kind, sketch.sourceId))]
    exact h.roots
  · exact Node.parentId_of_mem_numberAllFrom supply _ 0 h.parentId

/-- The forest of an atlas is laid out, before and after its nodes are numbered, and the children of
every node can be made, whatever the atlas holds. -/
theorem forest_laidOut (atlas : Atlas) (supply : ℕ → String) :
    atlas.LaidOut atlas.forest ∧ atlas.LaidOut (Node.numberAll supply atlas.forest) ∧
      ∀ node ∈ Node.nodesAll atlas.forest, ((atlas.site "").childrenOf? node.info).isSome := by
  refine ⟨atlas.laidOut_forest, atlas.laidOut_forest.numberAll supply, ?_⟩
  intro node hnode
  obtain ⟨infos, hinfos, _⟩ := (sound_and_laid_of_mem_forest atlas node hnode).1.exists_childrenOf?
  rw [hinfos]
  rfl

end Atlas

end DocAtlas
