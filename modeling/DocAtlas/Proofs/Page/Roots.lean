import DocAtlas.Build
import DocAtlas.Proofs.Atlas.Mirror
import DocAtlas.Proofs.Atlas.Notices
import DocAtlas.Proofs.Comment.Values
import DocAtlas.Proofs.Element.Layout
import DocAtlas.Proofs.Page.Chapters

/-!
# Roots of the documentation

Every stage has its own notion of a root. A comment block opens a namespace if its tag table has an
entry for namespaces, linking flags the entries whose first namespace is not empty, a heading must
also have a namespace to stand under, and only unflagged entries belong to their files. The notions
agree on everything that is read from sources, because a tag is read only together with a value.
-/

namespace DocAtlas

open DocAtlas.Element

/-! ## From tag tables to flags -/

namespace Comment

/-- Does the tag table of the comment have an entry for namespaces? -/
def opensNamespace (comment : Comment) : Bool :=
  "namespace" ∈ comment.tags.map Prod.fst

/-- No tag that is read from a source has an empty value. -/
theorem empty_notMem_values {supply : ℕ → String} {sources : List SourceFile} {comment : Comment}
    (h : comment ∈ extract supply .doc sources) (name : String) :
    "" ∉ comment.tags.values name := by
  intro hvalue
  obtain ⟨phrase, hphrase⟩ := exists_phrase_of_mem_values h hvalue
  exact phrase.nonempty hphrase

/-- A comment that is read from a source gives a root exactly if it opens a namespace. -/
theorem isRoot_ofComment {supply : ℕ → String} {sources : List SourceFile} {comment : Comment}
    (h : comment ∈ extract supply .doc sources) :
    (Entry.ofComment comment).isRoot = comment.opensNamespace := by
  have hroot := Tag.Table.isSome_value?_iff (empty_notMem_values h "namespace")
  have hentry : "namespace" ∈ comment.tags.map Prod.fst ↔
      comment.tags.values "namespace" ≠ [] := by
    obtain ⟨index, hindex, rfl⟩ := List.mem_mapIdx.mp h
    exact Tag.Table.mem_map_fst_ofOccurrences_iff _ "namespace"
  rw [Bool.eq_iff_iff, opensNamespace, decide_eq_true_iff, hentry]
  exact hroot

end Comment

/-! ## Flags and headings -/

/-- The entry says what a comment says. Only its edges do not come from the comment. -/
def Entry.Restates (entry : Entry) (comment : Comment) : Prop :=
  { entry with parents := [], children := [] } = ofComment comment

/-- What does not depend on edges is the same for entries and the comments that they restate. -/
theorem Entry.map_eq_of_restates {α : Type} {f : Entry → α}
    (hf : ∀ entry : Entry, f { entry with parents := [], children := [] } = f entry)
    {entries : List Entry} {comments : List Comment}
    (h : List.Forall₂ Entry.Restates entries comments) :
    entries.map f = comments.map fun comment => f (ofComment comment) := by
  rw [← List.forall₂_eq_eq_eq, List.forall₂_map_left_iff, List.forall₂_map_right_iff]
  refine h.imp fun entry comment hrestates => ?_
  rw [← hf, hrestates]

namespace Atlas

variable (comments : List Comment)

/-- Linking gives every comment an entry that restates it, in the order of the comments. -/
theorem forall₂_restates_link :
    List.Forall₂ Entry.Restates (link comments).entries comments := by
  have hmap : (link comments).entries.map (fun entry =>
      { entry with parents := [], children := [] }) = comments.map Entry.ofComment := by
    apply List.ext_getElem?
    intro place
    rw [List.getElem?_map, List.getElem?_map]
    exact map_getElem?_link comments place
  rw [← List.forall₂_eq_eq_eq, List.forall₂_map_left_iff, List.forall₂_map_right_iff] at hmap
  exact hmap

/-- The flagged entries restate the comments that give roots, in their order. -/
theorem forall₂_restates_roots :
    List.Forall₂ Entry.Restates ((link comments).entries.filter Entry.isRoot)
      (comments.filter fun comment => (Entry.ofComment comment).isRoot) := by
  refine List.rel_filter (fun entry comment h => ?_) (forall₂_restates_link comments)
  exact iff_of_eq (congrArg (fun entry => entry.isRoot = true) h)

/-- In a linked atlas every flagged entry has a namespace, so the headings are the flagged
entries. -/
theorem headings_link : (link comments).headings = (link comments).entries.filter Entry.isRoot := by
  refine List.filter_congr fun entry hentry => ?_
  obtain ⟨place, hplace⟩ := List.mem_iff_getElem?.mp hentry
  obtain ⟨comment, _, children, rfl⟩ := exists_of_getElem?_link comments hplace
  simp only [Entry.isHeading, Entry.ofComment, Tag.Table.value?]
  cases comment.tags.values "namespace" <;> simp

/-- A flagged entry does not belong to its file. -/
theorem association_ne_file_of_isRoot {entry : Entry} (hentry : entry ∈ (link comments).entries)
    (hroot : entry.isRoot = true) : ∀ edge ∈ entry.parents, edge.association ≠ "file" := by
  obtain ⟨place, hplace⟩ := List.mem_iff_getElem?.mp hentry
  obtain ⟨comment, _, children, rfl⟩ := exists_of_getElem?_link comments hplace
  intro edge hedge
  obtain ⟨tie, htie, rfl⟩ := Registries.mem_parentsOf_iff.mp hedge
  rw [Registries.fileTies, if_pos hroot, List.append_nil] at htie
  have hkinds := (Registries.of_mem_memberTies htie).2
  rw [Tie.toOwner]
  rcases hkinds with h | h <;> simp [h]

end Atlas

/-! ## Roots of the forest -/

namespace Element

/-- No node has a root as child. -/
theorem KindScheme.rootItem_notMem {headings : ℕ} {kind : String} {kinds : List String}
    (h : KindScheme headings kind kinds) : "root-item" ∉ kinds := by
  cases h <;> simp [List.mem_replicate]

mutual

/-- Below a tree that is laid out there are no roots. -/
theorem Node.kind_ne_rootItem {headings : List Entry} :
    (tree : Node) → (∀ node ∈ tree.nodes, node.Laid headings) →
      ∀ node ∈ Node.nodesAll tree.children, node.info.kind ≠ "root-item"
  | .pending info, _ => by simp [Node.children, Node.nodesAll]
  | .resolved info children, h => by
    rw [Node.nodes, List.forall_mem_cons] at h
    have hkinds := h.1.kinds.rootItem_notMem
    refine Node.kind_ne_rootItem_all children h.2 fun child hchild hkind => hkinds ?_
    exact List.mem_map.mpr ⟨child, hchild, hkind⟩

/-- In a forest that is laid out there are no roots if none of its trees is one. -/
theorem Node.kind_ne_rootItem_all {headings : List Entry} :
    (forest : List Node) → (∀ node ∈ Node.nodesAll forest, node.Laid headings) →
      (∀ tree ∈ forest, tree.info.kind ≠ "root-item") →
        ∀ node ∈ Node.nodesAll forest, node.info.kind ≠ "root-item"
  | [], _, _ => by simp [Node.nodesAll]
  | tree :: rest, hlaid, htrees => by
    rw [Node.nodesAll, List.forall_mem_append] at hlaid
    rw [List.forall_mem_cons] at htrees
    rw [Node.nodesAll, List.forall_mem_append, Node.nodes_eq, List.forall_mem_cons,
      ← Node.nodesAll_eq_flatMap]
    exact ⟨⟨htrees.1, Node.kind_ne_rootItem tree hlaid.1⟩,
      Node.kind_ne_rootItem_all rest hlaid.2 htrees.2⟩

end

end Element

namespace Atlas

/-- The roots of a forest that is laid out are its trees. -/
theorem LaidOut.filter_rootItem {atlas : Atlas} {forest : List Node} (h : atlas.LaidOut forest) :
    (Node.nodesAll forest).filter (·.info.kind = "root-item") = forest := by
  have hkinds : ∀ tree ∈ forest, tree.info.kind = "root-item" := by
    intro tree htree
    have hmem := List.mem_map_of_mem (f := fun root => (root.info.kind, root.info.sourceId)) htree
    rw [h.roots] at hmem
    obtain ⟨heading, _, heq⟩ := List.mem_map.mp hmem
    exact (Prod.mk.inj heq).1.symm
  have htree : ∀ tree ∈ forest,
      tree.nodes.filter (fun node => node.info.kind = "root-item") = [tree] := by
    intro tree htree
    have hbelow : (Node.nodesAll tree.children).filter
        (fun node => node.info.kind = "root-item") = [] := by
      have hlaid : ∀ node ∈ tree.nodes, node.Laid atlas.headings := by
        intro node hnode
        refine h.laid node ?_
        rw [Node.nodesAll_eq_flatMap]
        exact List.mem_flatMap.mpr ⟨tree, htree, hnode⟩
      rw [List.filter_eq_nil_iff]
      intro node hnode
      simpa using Node.kind_ne_rootItem tree hlaid node hnode
    rw [Node.nodes_eq, ← Node.nodesAll_eq_flatMap, List.filter_cons_of_pos, hbelow]
    exact decide_eq_true (hkinds tree htree)
  rw [Node.nodesAll_eq_flatMap, List.filter_flatMap, List.flatMap_congr htree,
    List.flatMap_singleton']

end Atlas

/-! ## Agreement -/

namespace Build

/-- All notions of a root agree on the comments that open a namespace: the flagged entries, the
roots of the forest and the chapters of the Markdown page, which have these entries as headings,
correspond to them one to one and in order. None of the flagged entries belongs to its file. -/
structure RootsAgree (build : Build) : Prop where
  entries : List.Forall₂ Entry.Restates build.atlas.entries build.comments
  flags : build.atlas.entries.map Entry.isRoot = build.comments.map Comment.opensNamespace
  flagged : List.Forall₂ Entry.Restates (build.atlas.entries.filter Entry.isRoot)
    (build.comments.filter Comment.opensNamespace)
  roots : (Node.nodesAll build.forest).filter (·.info.kind = "root-item") = build.forest ∧
    build.forest.map (·.info.sourceId) =
      (build.comments.filter Comment.opensNamespace).map (some ·.id)
  chapters : ∀ title, ∃ (found : List Page.Chapter) (rest : List Entry),
    Page.HasOutline build.atlas title found rest ∧
    List.Forall₂ (fun chapter comment => chapter.heading.Restates comment) found
      (build.comments.filter Comment.opensNamespace)
  files : ∀ entry ∈ build.atlas.entries.filter Entry.isRoot, ∀ edge ∈ entry.parents,
    edge.association ≠ "file"

/-- Whatever the sources, the parser, the linker, the forest and the Markdown page have the same
roots. -/
theorem ofSources_rootsAgree (supply : Supply) (strict : Bool) (sources : List SourceFile) :
    (ofSources supply strict sources).RootsAgree := by
  let comments := Comment.extract supply.comment .doc sources
  have hroot : ∀ comment ∈ comments,
      (Entry.ofComment comment).isRoot = comment.opensNamespace :=
    fun comment hcomment => Comment.isRoot_ofComment hcomment
  have hentries := Atlas.forall₂_restates_link comments
  have hflagged : List.Forall₂ Entry.Restates (Atlas.link comments).headings
      (comments.filter Comment.opensNamespace) := by
    rw [Atlas.headings_link, ← List.filter_congr hroot]
    exact Atlas.forall₂_restates_roots comments
  have hlaid := (Atlas.laidOut_forest (Atlas.link comments)).numberAll supply.element
  have hroots : (Node.numberAll supply.element (Atlas.link comments).forest).map
      (·.info.sourceId) = (Atlas.link comments).headings.map (some ·.id) := by
    have hpairs := congrArg (List.map Prod.snd) hlaid.roots
    rw [List.map_map, List.map_map] at hpairs
    exact hpairs
  constructor
  case entries => exact hentries
  case flags =>
    exact (Entry.map_eq_of_restates (fun _ => rfl) hentries).trans (List.map_congr_left hroot)
  case flagged => exact Atlas.headings_link comments ▸ hflagged
  case roots =>
    refine ⟨hlaid.filter_rootItem, hroots.trans ?_⟩
    exact Entry.map_eq_of_restates (f := fun entry => some entry.id) (fun _ => rfl) hflagged
  case chapters =>
    intro title
    refine ⟨_, _, Page.hasOutline _ title, ?_⟩
    rw [← List.forall₂_map_left_iff, Page.pageChapters, Page.map_heading_chapters]
    exact hflagged
  case files =>
    intro entry hentry
    obtain ⟨hentry, hflag⟩ := List.mem_filter.mp hentry
    exact Atlas.association_ne_file_of_isRoot comments hentry hflag

end Build

end DocAtlas
