import DocAtlas.Proofs.Atlas.Mirror
import DocAtlas.Proofs.Identity.Pages

/-!
# The documents do not depend on the identities of the comments

A renaming need only keep the identities of the comments apart. It agrees on them with a renaming
that keeps all identities apart. No other identity comes up in the atlas or in its forest, because
nothing changes in them if only other identities are renamed. So the renaming of the comments
carries over to the atlas and to the forest, and the documents stay as they are.
-/

namespace DocAtlas

open DocAtlas.Element

/-- A text that is longer than the new names of all given identities. -/
def freshLead (ids : List String) (f : String → String) : String :=
  String.ofList (List.replicate ((ids.map fun id => (f id).length).max?.getD 0 + 1) '.')

/-- A renaming of the given identities that keeps all others apart from them and from each other. -/
def renameApart (ids : List String) (f : String → String) (id : String) : String :=
  if id ∈ ids then f id else freshLead ids f ++ id

section Apart

variable {ids : List String} {f : String → String}

/-- The new names of the given identities are shorter than those of the others. -/
theorem length_lt_freshLead {id : String} (h : id ∈ ids) :
    (f id).length < (freshLead ids f).length := by
  have hle : (f id).length ≤ (ids.map fun id => (f id).length).max?.getD 0 :=
    List.le_max?_getD_of_mem (List.mem_map_of_mem h)
  rw [freshLead, String.length_ofList, List.length_replicate]
  omega

/-- A renaming that keeps the given identities apart keeps all identities apart after all. -/
theorem renameApart_injective (hf : ∀ a ∈ ids, ∀ b ∈ ids, f a = f b → a = b) :
    Function.Injective (renameApart ids f) := by
  have hshort {a : String} (ha : a ∈ ids) (b : String) : f a ≠ freshLead ids f ++ b := by
    intro heq
    have hlength := congrArg String.length heq
    have hlead := length_lt_freshLead (f := f) ha
    rw [String.length_append] at hlength
    omega
  intro a b h
  unfold renameApart at h
  split at h
  · next ha =>
    split at h
    · next hb => exact hf a ha b hb h
    · exact absurd h (hshort ha b)
  · split at h
    · next hb => exact absurd h.symm (hshort hb a)
    · have hlist := congrArg String.toList h
      rw [String.toList_append, String.toList_append] at hlist
      exact String.toList_inj.mp (List.append_cancel_left hlist)

/-- If the given identities keep their names, they are the only ones that do. -/
theorem mem_of_renameApart_id {a : String} (h : renameApart ids id a = a) : a ∈ ids := by
  unfold renameApart at h
  split at h
  · next ha => exact ha
  · have hlength := congrArg String.length h
    rw [String.length_append, freshLead, String.length_ofList, List.length_replicate] at hlength
    omega

end Apart

/-- Maps that agree on every value which a third one leaves alone agree on every list which it
leaves alone. -/
theorem map_congr_of_map_eq_self {α : Type} {m m₁ m₂ : α → α}
    (h : ∀ value, m value = value → m₁ value = m₂ value) {values : List α}
    (hvalues : values.map m = values) : values.map m₁ = values.map m₂ := by
  refine List.map_congr_left fun value hvalue => h value ?_
  exact List.map_inj_left.mp (hvalues.trans (List.map_id values).symm) value hvalue

section Congruence

-- The third renaming tells which identities come up: all that it leaves alone.
variable {f g r : String → String} (h : ∀ id, r id = id → f id = g id)

include h

/-- Renamings agree on a record whose only identity is one on which they agree. -/
theorem setId_congr {α : Type} {getId : α → String} (setId : String → α → α)
    (hset : ∀ id record, getId (setId id record) = id) (record : α)
    (hrecord : setId (r (getId record)) record = record) :
    setId (f (getId record)) record = setId (g (getId record)) record := by
  have hid : r (getId record) = getId record := by
    rw [← hset (r (getId record)) record, hrecord]
  rw [h (getId record) hid]

/-- Renamings agree on edges in which only identities come up on which they agree. -/
theorem Edge.map_mapId_congr {edges : List Edge} (hedges : edges.map (mapId r) = edges) :
    edges.map (mapId f) = edges.map (mapId g) :=
  map_congr_of_map_eq_self
    (setId_congr h (fun id (edge : Edge) => { edge with id }) fun _ _ => rfl) hedges

/-- Renamings agree on parameters in which only identities come up on which they agree. -/
theorem Parameter.map_mapId_congr {parameters : List Parameter}
    (hparameters : parameters.map (mapId r) = parameters) :
    parameters.map (mapId f) = parameters.map (mapId g) :=
  map_congr_of_map_eq_self
    (setId_congr h (fun id (parameter : Parameter) => { parameter with id }) fun _ _ => rfl)
    hparameters

/-- Renamings agree on declarations in which only identities come up on which they agree. -/
theorem Declaration.map_mapId_congr {declarations : List Declaration}
    (hdeclarations : declarations.map (mapId r) = declarations) :
    declarations.map (mapId f) = declarations.map (mapId g) :=
  map_congr_of_map_eq_self
    (setId_congr h (fun id (declaration : Declaration) => { declaration with id }) fun _ _ => rfl)
    hdeclarations

/-- Renamings agree on an entry in which only identities come up on which they agree. -/
theorem Entry.mapIds_congr (entry : Entry) (hentry : entry.mapIds r = entry) :
    entry.mapIds f = entry.mapIds g := by
  have hrequires : entry.requires.map (Tag.Requirement.mapId f) =
      entry.requires.map (Tag.Requirement.mapId g) :=
    map_congr_of_map_eq_self
      (setId_congr h (fun id (requirement : Tag.Requirement) => { requirement with id })
        fun _ _ => rfl)
      (congrArg requires hentry)
  rw [mapIds, mapIds, h entry.id (congrArg id hentry), hrequires,
    Parameter.map_mapId_congr h (congrArg props hentry),
    Parameter.map_mapId_congr h (congrArg arguments hentry),
    Edge.map_mapId_congr h (congrArg parents hentry),
    Edge.map_mapId_congr h (congrArg children hentry)]

/-- Renamings agree on an atlas in which only identities come up on which they agree. -/
theorem Atlas.mapIds_congr (atlas : Atlas) (hatlas : atlas.mapIds r = atlas) :
    atlas.mapIds f = atlas.mapIds g := by
  have hfiles : atlas.files.map (FileDeclaration.mapId f) =
      atlas.files.map (FileDeclaration.mapId g) :=
    map_congr_of_map_eq_self
      (setId_congr h (fun id (file : FileDeclaration) => { file with id }) fun _ _ => rfl)
      (congrArg files hatlas)
  rw [mapIds, mapIds, hfiles,
    map_congr_of_map_eq_self (Entry.mapIds_congr h) (congrArg entries hatlas),
    Declaration.map_mapId_congr h (congrArg namespaces hatlas),
    Declaration.map_mapId_congr h (congrArg modules hatlas)]

/-- Renamings agree on a source on which they agree. -/
theorem optionMap_congr (source : Option String) (hsource : source.map r = source) :
    source.map f = source.map g := by
  cases source with
  | none => rfl
  | some id => rw [Option.map_some, Option.map_some, h id (Option.some.inj hsource)]

/-- Renamings agree on a node that refers only to identities on which they agree. -/
theorem Element.NodeInfo.mapSources_congr (info : NodeInfo) (hinfo : info.mapSources r = info) :
    info.mapSources f = info.mapSources g := by
  have hsource := optionMap_congr h info.sourceId (congrArg (·.sourceId) hinfo)
  have hspec := optionMap_congr h info.spec.sourceId (congrArg (·.spec.sourceId) hinfo)
  have hpath : info.spec.path.map f = info.spec.path.map g :=
    map_congr_of_map_eq_self h (congrArg (·.spec.path) hinfo)
  rw [mapSources, mapSources, Sketch.mapSources, Sketch.mapSources, Spec.mapSources,
    Spec.mapSources, hsource, hspec, hpath]

end Congruence

mutual

/-- Renamings agree on a tree that refers only to identities on which they agree. -/
theorem Element.Node.mapSources_congr {f g r : String → String}
    (h : ∀ id, r id = id → f id = g id) :
    (node : Node) → node.mapSources r = node → node.mapSources f = node.mapSources g
  | .pending info, hnode => by
    rw [mapSources, mapSources, NodeInfo.mapSources_congr h info (pending.inj hnode)]
  | .resolved info children, hnode => by
    obtain ⟨hinfo, hchildren⟩ := resolved.inj hnode
    rw [mapSources, mapSources, NodeInfo.mapSources_congr h info hinfo,
      mapSourcesAll_congr h children hchildren]

/-- Renamings agree on a forest that refers only to identities on which they agree. -/
theorem Element.Node.mapSourcesAll_congr {f g r : String → String}
    (h : ∀ id, r id = id → f id = g id) :
    (forest : List Node) → mapSourcesAll r forest = forest →
      mapSourcesAll f forest = mapSourcesAll g forest
  | [], _ => rfl
  | node :: rest, hforest => by
    obtain ⟨hnode, hrest⟩ := List.cons.inj hforest
    rw [mapSourcesAll, mapSourcesAll, mapSources_congr h node hnode,
      mapSourcesAll_congr h rest hrest]

end

namespace Comment

variable {comments : List Comment} {f g : String → String}

/-- Renamings that agree on the identities of comments rename the comments in the same way. -/
theorem map_mapId_congr (h : ∀ comment ∈ comments, f comment.id = g comment.id) :
    comments.map (mapId f) = comments.map (mapId g) := by
  refine List.map_congr_left fun comment hcomment => ?_
  rw [mapId, mapId, h comment hcomment]

/-- A renaming that keeps the identities of comments apart agrees on them with one that keeps all
identities apart. -/
theorem exists_injective_eq
    (hf : ∀ a ∈ comments, ∀ b ∈ comments, f a.id = f b.id → a.id = b.id) :
    ∃ g, Function.Injective g ∧ ∀ comment ∈ comments, f comment.id = g comment.id := by
  refine ⟨renameApart (comments.map id) f, renameApart_injective ?_, fun comment hcomment => ?_⟩
  · intro a ha b hb heq
    obtain ⟨first, hfirst, rfl⟩ := List.mem_map.mp ha
    obtain ⟨second, hsecond, rfl⟩ := List.mem_map.mp hb
    exact hf first hfirst second hsecond heq
  · rw [renameApart, if_pos (List.mem_map_of_mem hcomment)]

/-- Some renaming keeps all identities apart and leaves alone those of the comments only. -/
theorem exists_injective_fixing (comments : List Comment) :
    ∃ r, Function.Injective r ∧ comments.map (mapId r) = comments ∧
      ∀ a, r a = a → a ∈ comments.map id := by
  refine ⟨renameApart (comments.map id) (fun a => a), renameApart_injective fun _ _ _ _ heq => heq,
    ?_, fun a => mem_of_renameApart_id⟩
  refine (List.map_congr_left fun comment hcomment => ?_).trans (List.map_id comments)
  rw [mapId, renameApart, if_pos (List.mem_map_of_mem hcomment)]
  rfl

end Comment

namespace Atlas

/-- Only the identities of the comments come up in their atlas and its forest. -/
theorem link_congr {comments : List Comment} {f g : String → String}
    (h : ∀ comment ∈ comments, f comment.id = g comment.id) :
    (link comments).mapIds f = (link comments).mapIds g ∧
      (link comments).forest.map (Node.mapSources f) =
        (link comments).forest.map (Node.mapSources g) := by
  obtain ⟨r, hr, hcomments, hfixed⟩ := Comment.exists_injective_fixing comments
  have hagree : ∀ id, r id = id → f id = g id := by
    intro id hid
    obtain ⟨comment, hcomment, rfl⟩ := List.mem_map.mp (hfixed id hid)
    exact h comment hcomment
  have hatlas : (link comments).mapIds r = link comments := by
    rw [← link_map_mapId hr, hcomments]
  have hforest : (link comments).forest.map (Node.mapSources r) = (link comments).forest := by
    rw [← forest_mapIds hr, hatlas]
  exact ⟨mapIds_congr hagree _ hatlas,
    map_congr_of_map_eq_self (Node.mapSources_congr hagree) hforest⟩

/-- The documents do not depend on the identities of the comments. If they are renamed and different
ones stay different, then linking gives the same atlas and the same forest with the identities
renamed, and the review, the coverage, the Markdown page and the HTML page with numbered nodes stay
the same. -/
theorem link_renamed (comments : List Comment) {f : String → String}
    (hf : ∀ a ∈ comments, ∀ b ∈ comments, f a.id = f b.id → a.id = b.id) :
    link (comments.map (Comment.mapId f)) = (link comments).mapIds f ∧
      (link (comments.map (Comment.mapId f))).forest =
        (link comments).forest.map (Node.mapSources f) ∧
      (∀ strict, (link (comments.map (Comment.mapId f))).review strict =
        (link comments).review strict) ∧
      (link (comments.map (Comment.mapId f))).coverage = (link comments).coverage ∧
      (∀ title, Page.markdown (link (comments.map (Comment.mapId f))) title =
        Page.markdown (link comments) title) ∧
      ∀ supply title settings,
        Page.html title settings
            (Node.numberAll supply (link (comments.map (Comment.mapId f))).forest) =
          Page.html title settings (Node.numberAll supply (link comments).forest) := by
  obtain ⟨g, hg, hfg⟩ := Comment.exists_injective_eq hf
  obtain ⟨hatlas, hforest⟩ := link_congr hfg
  rw [Comment.map_mapId_congr hfg, link_map_mapId hg, hatlas, hforest]
  refine ⟨rfl, forest_mapIds hg _, fun strict => review_mapIds _ strict, coverage_mapIds _,
    fun title => Page.markdown_mapIds hg _ title, fun supply title settings => ?_⟩
  rw [forest_mapIds hg, Node.numberAll_mapSources, Page.html_mapSources]

end Atlas

/-- The identities of the comments of the circle handed on to the next, all others to the first. -/
def Comment.shift (id : String) : String :=
  if id = "a" then "b" else if id = "b" then "c" else "a"

/-- The pages of the circle stay the same if its identities are handed on. -/
theorem Atlas.link_renamed_circle :
    (∀ a ∈ Comment.circle, ∀ b ∈ Comment.circle,
      Comment.shift a.id = Comment.shift b.id → a.id = b.id) ∧
      (link (Comment.circle.map (Comment.mapId Comment.shift))).entries.map Entry.id =
        ["b", "c", "a"] ∧
      link (Comment.circle.map (Comment.mapId Comment.shift)) =
        (link Comment.circle).mapIds Comment.shift ∧
      Page.markdown (link (Comment.circle.map (Comment.mapId Comment.shift))) "Docs" =
        Page.markdown (link Comment.circle) "Docs" := by
  have hshift : ∀ a ∈ Comment.circle, ∀ b ∈ Comment.circle,
      Comment.shift a.id = Comment.shift b.id → a.id = b.id := by decide
  obtain ⟨hatlas, _, _, _, hmarkdown, _⟩ := link_renamed Comment.circle hshift
  exact ⟨hshift, by decide, hatlas, hmarkdown "Docs"⟩

end DocAtlas
