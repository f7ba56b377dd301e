import DocAtlas.Proofs.Element.Growth
import DocAtlas.Proofs.Identity.Link

/-!
# Forests do not read identities

If the identities of an atlas are renamed so that different ones stay different, the forest keeps
its shape, its texts and the identifiers of its nodes. Only the entries that the nodes refer to are
renamed. One lemma for every step from the atlas to the forest says so.
-/

namespace DocAtlas

open DocAtlas.Element

section Nodes

variable (f : String → String)

/-- A specification with the entries that it refers to renamed. -/
def Element.Spec.mapSources (spec : Spec) : Spec :=
  { spec with sourceId := spec.sourceId.map f, path := spec.path.map f }

/-- A sketch with the entries that it refers to renamed. -/
def Element.Sketch.mapSources (sketch : Sketch) : Sketch :=
  { sketch with sourceId := sketch.sourceId.map f, spec := sketch.spec.mapSources f }

/-- A node without its children, with the entries that it refers to renamed. -/
def Element.NodeInfo.mapSources (info : NodeInfo) : NodeInfo :=
  { info with toSketch := info.toSketch.mapSources f }

mutual

/-- A tree with the entries that its nodes refer to renamed. -/
def Element.Node.mapSources : Node → Node
  | .pending info => .pending (info.mapSources f)
  | .resolved info children => .resolved (info.mapSources f) (mapSourcesAll children)

/-- A forest with the entries that its nodes refer to renamed. -/
def Element.Node.mapSourcesAll : List Node → List Node
  | [] => []
  | node :: rest => mapSources node :: mapSourcesAll rest

end

end Nodes

variable {f : String → String}

/-- Renaming in a forest is renaming in each of its trees. -/
theorem Element.Node.mapSourcesAll_eq_map (forest : List Node) :
    mapSourcesAll f forest = forest.map (mapSources f) := by
  induction forest with
  | nil => rfl
  | cons node rest ih => rw [mapSourcesAll, ih, List.map_cons]

/-- Turning elements into others before or after a map with positions. -/
theorem mapIdx_map_comm {α β : Type} {m : α → α} {r : β → β} {g g' : ℕ → α → β}
    (h : ∀ index value, g' index (m value) = r (g index value)) (values : List α) :
    (values.map m).mapIdx g' = (values.mapIdx g).map r := by
  refine List.ext_getElem (by simp) fun index _ _ => ?_
  simp only [List.getElem_mapIdx, List.getElem_map, h]

/-- The last element that passes a test, after turning all elements into others. -/
theorem findRev?_map {α β : Type} (m : α → β) (p : β → Bool) (values : List α) :
    (values.map m).findRev? p = (values.findRev? fun value => p (m value)).map m := by
  rw [List.findRev?_eq_find?_reverse, List.findRev?_eq_find?_reverse, ← List.map_reverse,
    List.find?_map]
  rfl

namespace Atlas

/-- The headings of a renamed atlas are the renamed headings. -/
theorem headings_mapIds (atlas : Atlas) :
    (atlas.mapIds f).headings = atlas.headings.map (Entry.mapIds f) := by
  rw [headings, headings, mapIds, List.filter_map]
  rfl

section Lookup

variable (hf : Function.Injective f)

include hf

/-- A renamed identity finds the renamed first entry. -/
theorem get?_mapIds (atlas : Atlas) (id : String) :
    (atlas.mapIds f).get? (f id) = (atlas.get? id).map (Entry.mapIds f) := by
  simp only [get?, mapIds, List.find?_map, Function.comp_def, Entry.mapIds_id, hf.eq_iff]

/-- A renamed identity finds the renamed last entry. -/
theorem latest?_mapIds (atlas : Atlas) (id : String) :
    (atlas.mapIds f).latest? (f id) = (atlas.latest? id).map (Entry.mapIds f) := by
  simp only [latest?, mapIds, findRev?_map, Entry.mapIds_id, hf.eq_iff]

/-- The field of a module is the same for a renamed entry. -/
theorem moduleField_mapIds (atlas : Atlas) (entry : Entry) (name : String) :
    (atlas.mapIds f).moduleField (entry.mapIds f) name = atlas.moduleField entry name := by
  have hfind : (atlas.mapIds f).modules.findRev? (·.description = name) =
      (atlas.modules.findRev? (·.description = name)).map (Declaration.mapId f) :=
    findRev?_map _ _ _
  rw [moduleField, moduleField, hfind]
  cases atlas.modules.findRev? (·.description = name) with
  | none => rw [Option.map_none, if_pos rfl, if_pos rfl]
  | some declaration =>
    simp only [Option.map_some, Declaration.mapId, Entry.mapIds_id, hf.eq_iff]

omit hf in
/-- The field of the file is the same for a renamed entry. -/
theorem fileField_mapIds (atlas : Atlas) (entry : Entry) :
    (atlas.mapIds f).fileField (entry.mapIds f) = atlas.fileField entry := by
  have hfind : (atlas.mapIds f).files.findRev? (·.filePath = entry.origin.filePath) =
      (atlas.files.findRev? (·.filePath = entry.origin.filePath)).map (FileDeclaration.mapId f) :=
    findRev?_map _ _ _
  have horigin : (entry.mapIds f).origin = entry.origin := rfl
  rw [fileField, fileField, horigin, hfind]
  cases atlas.files.findRev? (·.filePath = entry.origin.filePath) with
  | none => rfl
  | some file => rfl

/-- The fields of a renamed entry are those of the entry. -/
theorem fieldsOf_mapIds (atlas : Atlas) (entry : Entry) :
    (atlas.mapIds f).fieldsOf (entry.mapIds f) = atlas.fieldsOf entry := by
  have hmodules : (atlas.mapIds f).moduleField (entry.mapIds f) = atlas.moduleField entry :=
    funext fun name => moduleField_mapIds hf atlas entry name
  have hprops : (entry.mapIds f).props = entry.props.map (Parameter.mapId f) := rfl
  have harguments : (entry.mapIds f).arguments = entry.arguments.map (Parameter.mapId f) := rfl
  have hrequires : (entry.mapIds f).requires = entry.requires.map (Tag.Requirement.mapId f) := rfl
  have hparents : (entry.mapIds f).parents = entry.parents.map (Edge.mapId f) := rfl
  have hparameters (name : String) (parameters : List Parameter) :
      Entry.parameterFields name (parameters.map (Parameter.mapId f)) =
        Entry.parameterFields name parameters := by
    rw [Entry.parameterFields, Entry.parameterFields, List.map_map]
    rfl
  unfold fieldsOf
  rw [hmodules, fileField_mapIds, hprops, harguments, hrequires, hparents, hparameters, hparameters,
    List.map_map, List.map_map]
  rfl

omit hf in
/-- A navigation link leads to the renamed entry. -/
theorem navTarget_mapIds (atlas : Atlas) (heading : Entry) :
    (atlas.mapIds f).navTarget (heading.mapIds f) = f (atlas.navTarget heading) := by
  have hfind : (atlas.mapIds f).namespaces.findRev? (·.description = heading.group) =
      (atlas.namespaces.findRev? (·.description = heading.group)).map (Declaration.mapId f) :=
    findRev?_map _ _ _
  have hgroup : (heading.mapIds f).group = heading.group := rfl
  rw [navTarget, navTarget, hgroup, hfind]
  cases atlas.namespaces.findRev? (·.description = heading.group) with
  | none => rfl
  | some declaration => rfl

end Lookup

end Atlas

section Members

variable (hf : Function.Injective f)

include hf

/-- Renamed entries are kept once by their renamed identities. -/
theorem distinctById_mapIds (seen : List String) (entries : List Entry) :
    distinctById (seen.map f) (entries.map (Entry.mapIds f)) =
      (distinctById seen entries).map (Entry.mapIds f) := by
  induction entries generalizing seen with
  | nil => rfl
  | cons entry rest ih =>
    rw [List.map_cons, distinctById, distinctById, Entry.mapIds_id, ← List.map_cons, ih, ih]
    by_cases h : entry.id ∈ seen
    · rw [if_pos h, if_pos ((List.mem_map_of_injective hf).mpr h)]
    · rw [if_neg h, if_neg (mt (List.mem_map_of_injective hf).mp h), List.map_cons]

/-- The members of a renamed entry are the renamed members. -/
theorem Entry.members_mapIds {lookup lookup' : String → Option Entry}
    (h : ∀ id, lookup' (f id) = (lookup id).map (Entry.mapIds f)) (entry : Entry) :
    (entry.mapIds f).members lookup' = (entry.members lookup).map (Entry.mapIds f) := by
  have hfound : (entry.mapIds f).children.filterMap (fun edge => lookup' edge.id) =
      (entry.children.filterMap fun edge => lookup edge.id).map (Entry.mapIds f) := by
    rw [mapIds, List.filterMap_map, List.map_filterMap]
    exact List.filterMap_congr fun edge _ => h edge.id
  rw [members, members, hfound]
  exact distinctById_mapIds hf [] _

/-- The members of a renamed entry in a renamed atlas are the renamed members. -/
theorem Atlas.panelMembers_mapIds (atlas : Atlas) (entry : Entry) :
    (atlas.mapIds f).panelMembers (entry.mapIds f) =
      (atlas.panelMembers entry).map (Entry.mapIds f) :=
  Entry.members_mapIds hf (latest?_mapIds hf atlas) entry

end Members

/-- Renamed headings get the same slugs. -/
theorem assignSlugs_mapIds (taken : List String) (headings : List Entry) :
    assignSlugs taken (headings.map (Entry.mapIds f)) =
      (assignSlugs taken headings).map fun pair => (f pair.1, pair.2) := by
  induction headings generalizing taken with
  | nil => rfl
  | cons heading rest ih =>
    have hgroup : (heading.mapIds f).group = heading.group := rfl
    simp only [List.map_cons, assignSlugs, hgroup, ih, Entry.mapIds_id]

/-- A site with all identities renamed. -/
def Site.mapIds (f : String → String) (site : Site) : Site :=
  { atlas := site.atlas.mapIds f
    slugs := site.slugs.map fun pair => (f pair.1, pair.2)
    mark := site.mark }

/-- The site of a renamed atlas is the renamed site. -/
theorem Atlas.site_mapIds (atlas : Atlas) (mark : String) :
    (atlas.mapIds f).site mark = (atlas.site mark).mapIds f := by
  simp only [site, slugs, headings_mapIds, assignSlugs_mapIds, Site.mapIds]

namespace Site

/-- A tab with the identities of its entry renamed. -/
def Tab.mapIds (f : String → String) (tab : Tab) : Tab :=
  { tab with entry := tab.entry.mapIds f }

variable (hf : Function.Injective f)

include hf

/-- A renamed identity has the same slug. -/
theorem slug?_mapIds (site : Site) (id : String) :
    (site.mapIds f).slug? (f id) = site.slug? id := by
  have hfind : (site.mapIds f).slugs.findRev? (fun pair => pair.1 = f id) =
      (site.slugs.findRev? fun pair => pair.1 = id).map fun pair => (f pair.1, pair.2) := by
    simp only [mapIds, findRev?_map, hf.eq_iff]
  rw [slug?, SlugTable.get?, hfind, Option.map_map]
  rfl

/-- The slug and the entry that a renamed source leads to. -/
theorem bind_slug?_mapIds (site : Site) (source : Option String) :
    (source.map f).bind (site.mapIds f).slug? = source.bind site.slug? := by
  cases source with
  | none => rfl
  | some id => exact slug?_mapIds hf site id

/-- A renamed source leads to the renamed entry. -/
theorem bind_latest?_mapIds (site : Site) (source : Option String) :
    (source.map f).bind (site.mapIds f).atlas.latest? =
      (source.bind site.atlas.latest?).map (Entry.mapIds f) := by
  cases source with
  | none => rfl
  | some id => exact Atlas.latest?_mapIds hf site.atlas id

/-- The children of a renamed root. -/
theorem rootChildren?_mapIds (site : Site) (spec : Spec) :
    (site.mapIds f).rootChildren? (spec.mapSources f) =
      (site.rootChildren? spec).map (List.map (Sketch.mapSources f)) := by
  rw [rootChildren?, rootChildren?, Spec.mapSources, bind_latest?_mapIds hf]
  cases spec.sourceId.bind site.atlas.latest? with
  | none => rfl
  | some entry =>
    simp only [Option.map_some, Option.bind_eq_bind, Option.bind_some, Entry.mapIds_id,
      slug?_mapIds hf]
    cases site.slug? entry.id with
    | none => rfl
    | some slug => rfl

/-- The link to a renamed heading. -/
theorem navSublink_mapIds (site : Site) (domId : Option String) (heading : Entry) :
    (site.mapIds f).navSublink domId (heading.mapIds f) =
      (site.navSublink domId heading).mapSources f := by
  have htarget : (site.mapIds f).atlas.navTarget (heading.mapIds f) =
      f (site.atlas.navTarget heading) := Atlas.navTarget_mapIds site.atlas heading
  rw [navSublink, navSublink, Entry.mapIds_id, slug?_mapIds hf, htarget]
  rfl

/-- The children of a renamed container. -/
theorem containerChildren?_mapIds (site : Site) (spec : Spec) :
    (site.mapIds f).containerChildren? (spec.mapSources f) =
      (site.containerChildren? spec).map (List.map (Sketch.mapSources f)) := by
  rw [containerChildren?, containerChildren?, Spec.mapSources, bind_slug?_mapIds hf]
  cases spec.sourceId.bind site.slug? with
  | none => rfl
  | some slug => rfl

/-- The tabs of a renamed heading are the renamed tabs. -/
theorem tabsOf?_mapIds (site : Site) (source : Option String) :
    (site.mapIds f).tabsOf? (source.map f) =
      (site.tabsOf? source).map (List.map (Tab.mapIds f)) := by
  rw [tabsOf?, tabsOf?, bind_latest?_mapIds hf, bind_slug?_mapIds hf]
  cases source.bind site.atlas.latest? with
  | none => rfl
  | some heading =>
    cases source.bind site.slug? with
    | none => rfl
    | some slug =>
      have hmembers : (site.mapIds f).atlas.panelMembers (heading.mapIds f) =
          (site.atlas.panelMembers heading).map (Entry.mapIds f) :=
        Atlas.panelMembers_mapIds hf site.atlas heading
      simp only [Option.map_some, Option.bind_eq_bind, Option.bind_some, hmembers, List.map_cons]
      refine congrArg (fun tabs => some (_ :: tabs)) (mapIdx_map_comm (fun index member => ?_) _)
      rfl

/-- The division of a tab is the same for renamed identities. -/
theorem tabDivision_mapIds (source : Option String) (entry : Entry) :
    tabDivision (source.map f) (entry.mapIds f) = tabDivision source entry := by
  have hiff : some (entry.mapIds f).id = source.map f ↔ some entry.id = source := by
    cases source with
    | none => simp
    | some id => simp [hf.eq_iff]
  have hkind : (entry.mapIds f).kind = entry.kind := rfl
  rw [tabDivision, tabDivision, hkind]
  by_cases h : some entry.id = source
  · rw [if_pos h, if_pos (hiff.mpr h)]
  · rw [if_neg h, if_neg (mt hiff.mp h)]

/-- A renamed tab is drawn as the tab is. -/
theorem tabSketch_mapIds (spec : Spec) (tab : Tab) :
    tabSketch (spec.mapSources f) (tab.mapIds f) = (tabSketch spec tab).mapSources f := by
  have hdivision := tabDivision_mapIds hf spec.sourceId tab.entry
  simp only [tabSketch, Spec.mapSources, Tab.mapIds, hdivision]
  rfl

/-- The panel of a renamed tab is drawn as the panel is. -/
theorem panelSketch_mapIds (spec : Spec) (tab : Tab) :
    panelSketch (spec.mapSources f) (tab.mapIds f) = (panelSketch spec tab).mapSources f := by
  have hdivision := tabDivision_mapIds hf spec.sourceId tab.entry
  have hpath : (spec.sourceId.map f).toList ++ [f tab.entry.id] =
      (spec.sourceId.toList ++ [tab.entry.id]).map f := by
    cases spec.sourceId <;> rfl
  simp only [panelSketch, Spec.mapSources, Tab.mapIds, hdivision, Entry.mapIds_id, hpath]
  rfl

/-- The panels of a renamed entry's members. -/
theorem memberPanels_mapIds (atlas : Atlas) (domId : Option String) (spec : Spec) (entry : Entry) :
    memberPanels (atlas.mapIds f) domId (spec.mapSources f) (entry.mapIds f) =
      (memberPanels atlas domId spec entry).map (Sketch.mapSources f) := by
  have hhead : (spec.mapSources f).path.head? = some (entry.mapIds f).id ↔
      spec.path.head? = some entry.id := by
    rw [Spec.mapSources, List.head?_map, Entry.mapIds_id]
    exact (Option.map_injective hf).eq_iff (b := some entry.id)
  have hmember (index : ℕ) (member : Entry) :
      memberSketch domId (spec.mapSources f) index (member.mapIds f) =
        (memberSketch domId spec index member).mapSources f := by
    have hpath : spec.path.map f ++ [f member.id] = (spec.path ++ [member.id]).map f := by
      rw [List.map_append, List.map_singleton]
    simp only [memberSketch, Spec.mapSources, Entry.mapIds_id, hpath]
    rfl
  rw [memberPanels, memberPanels]
  by_cases h : spec.path.head? = some entry.id
  · rw [if_pos h, if_pos (hhead.mpr h), List.map_nil]
  · rw [if_neg h, if_neg (mt hhead.mp h), Atlas.panelMembers_mapIds hf, List.zipIdx_map,
      List.filter_map, List.map_map, List.map_map]
    have hnew (pair : Entry × ℕ) : decide ((pair.1.mapIds f).id ∉ (spec.mapSources f).path) =
        decide (pair.1.id ∉ spec.path) := by
      simp [Spec.mapSources, hf.eq_iff]
    simp only [Function.comp_def, Prod.map_fst, Prod.map_snd, hnew, hmember, id]

/-- The children that a renamed specification stands for are the renamed children. -/
theorem expand?_mapIds (site : Site) (domId : Option String) (spec : Spec) :
    (site.mapIds f).expand? domId (spec.mapSources f) =
      (site.expand? domId spec).map (List.map (Sketch.mapSources f)) := by
  have hexpand : (spec.mapSources f).expand = spec.expand := rfl
  have hsource : (spec.mapSources f).sourceId = spec.sourceId.map f := rfl
  rw [expand?, expand?, hexpand]
  cases spec.expand with
  | none => rfl
  | rootItem => exact rootChildren?_mapIds hf site spec
  | navLinks =>
    have hheadings : (site.mapIds f).atlas.headings = site.atlas.headings.map (Entry.mapIds f) :=
      Atlas.headings_mapIds site.atlas
    simp only [hheadings, List.map_map, Option.map_some, Function.comp_def, navSublink_mapIds hf]
  | container => exact containerChildren?_mapIds hf site spec
  | tabs =>
    simp only [hsource, tabsOf?_mapIds hf, Option.map_map, Function.comp_def, List.map_map,
      tabSketch_mapIds hf]
  | panels =>
    simp only [hsource, tabsOf?_mapIds hf, Option.map_map, Function.comp_def, List.map_map,
      panelSketch_mapIds hf]
  | fields =>
    have hfields (entry : Entry) : (site.mapIds f).atlas.fieldsOf (entry.mapIds f) =
        site.atlas.fieldsOf entry := Atlas.fieldsOf_mapIds hf site.atlas entry
    have hpanels (entry : Entry) :
        memberPanels (site.mapIds f).atlas domId (spec.mapSources f) (entry.mapIds f) =
          (memberPanels site.atlas domId spec entry).map (Sketch.mapSources f) :=
      memberPanels_mapIds hf site.atlas domId spec entry
    simp only [hsource, bind_latest?_mapIds hf, Option.map_map, Function.comp_def, hfields, hpanels,
      List.map_append, List.map_map]
    rfl

/-- The children of a renamed node are the renamed children. -/
theorem childrenOf?_mapIds (site : Site) (info : NodeInfo) :
    (site.mapIds f).childrenOf? (info.mapSources f) =
      (site.childrenOf? info).map (List.map (NodeInfo.mapSources f)) := by
  have hexpand := expand?_mapIds hf site (info.attribute? Attributes.domId) info.spec
  have hdomId : (info.mapSources f).attribute? Attributes.domId =
      info.attribute? Attributes.domId := rfl
  have hspec : (info.mapSources f).spec = info.spec.mapSources f := rfl
  rw [childrenOf?, childrenOf?, hdomId, hspec, hexpand, Option.map_map, Option.map_map]
  refine congrArg (Option.map · _) (funext fun sketches => ?_)
  refine mapIdx_map_comm (fun index sketch => ?_) sketches
  rfl

/-- A renamed tree grows from a renamed node. -/
theorem grow_mapIds (site : Site) (info : NodeInfo) :
    (site.mapIds f).grow (info.mapSources f) = (site.grow info).mapSources f := by
  induction hweight : site.atlas.weight info.spec using Nat.strongRecOn generalizing info with
  | _ weight ih =>
    have hchildren := childrenOf?_mapIds hf site info
    cases h : site.childrenOf? info with
    | none =>
      rw [h] at hchildren
      rw [grow_eq_of_none h, grow_eq_of_none hchildren]
      rfl
    | some infos =>
      rw [h] at hchildren
      rw [grow_eq_of_some h, grow_eq_of_some hchildren, Node.mapSources, Node.mapSourcesAll_eq_map,
        List.map_map, List.map_map]
      refine congrArg (Node.resolved _) (List.map_congr_left fun child hchild => ?_)
      refine ih _ ?_ child rfl
      rw [← hweight]
      exact weight_childrenOf?_lt h hchild

end Site

/-- The forest of a renamed atlas is the renamed forest. -/
theorem Atlas.forest_mapIds (hf : Function.Injective f) (atlas : Atlas) :
    (atlas.mapIds f).forest = atlas.forest.map (Node.mapSources f) := by
  have hroot (index : ℕ) (heading : Entry) :
      ((atlas.site "").mapIds f).rootInfo index (heading.mapIds f) =
        ((atlas.site "").rootInfo index heading).mapSources f := by
    rw [Site.rootInfo, Site.rootInfo, Entry.mapIds_id, Site.slug?_mapIds hf]
    rfl
  have hheadings : ((atlas.site "").mapIds f).atlas.headings =
      (atlas.site "").atlas.headings.map (Entry.mapIds f) := headings_mapIds atlas
  rw [forest, forest, site_mapIds, Site.forest, Site.forest, hheadings, mapIdx_map_comm hroot,
    List.map_map, List.map_map]
  exact List.map_congr_left fun info _ => Site.grow_mapIds hf (atlas.site "") info

end DocAtlas
