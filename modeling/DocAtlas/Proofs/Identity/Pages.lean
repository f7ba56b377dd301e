import DocAtlas.Atlas.Coverage
import DocAtlas.Atlas.Review
import DocAtlas.Element.Numbering
import DocAtlas.Page.Html
import DocAtlas.Page.Markdown
import DocAtlas.Proofs.Identity.Forest

/-!
# Pages do not show identities

If the identities of an atlas are renamed so that different ones stay different, then the review,
the coverage and the Markdown page stay the same. The HTML page of a forest does not show the
entries that the nodes refer to, so it stays the same as well.
-/

namespace DocAtlas

open DocAtlas.Element

variable {f : String → String}

namespace Atlas

/-- A review does not depend on identities. -/
theorem review_mapIds (atlas : Atlas) (strict : Bool) :
    (atlas.mapIds f).review strict = atlas.review strict := by
  have hnamespaces : (atlas.mapIds f).namespaces.map (·.description) =
      atlas.namespaces.map (·.description) := by
    rw [mapIds, List.map_map]
    rfl
  have hmodules : (atlas.mapIds f).modules.map (·.description) =
      atlas.modules.map (·.description) := by
    rw [mapIds, List.map_map]
    rfl
  have href : (atlas.mapIds f).refFinding? = atlas.refFinding? := by
    funext ref
    rw [refFinding?, refFinding?, hnamespaces, hmodules]
  have hmessages : (atlas.mapIds f).messages = atlas.messages := by
    have hentry (entry : Entry) :
        (atlas.mapIds f).messagesOf (entry.mapIds f) = atlas.messagesOf entry := by
      rw [messagesOf, messagesOf, findingsOf, findingsOf, href]
      rfl
    have hentries : (atlas.mapIds f).entries = atlas.entries.map (Entry.mapIds f) := rfl
    rw [messages, messages, hentries, List.flatMap_map]
    exact List.flatMap_congr fun entry _ => hentry entry
  rw [review, review, hmessages]

/-- Coverage does not depend on identities. -/
theorem coverage_mapIds (atlas : Atlas) : (atlas.mapIds f).coverage = atlas.coverage := by
  have hparents (entry : Entry) :
      (entry.mapIds f).parents.isEmpty = entry.parents.isEmpty := List.isEmpty_map
  simp only [coverage, mapIds, List.countP_map, List.filter_map, List.length_map,
    Function.comp_def, hparents]
  rfl

end Atlas

namespace Page

/-- The section of an entry does not depend on identities. -/
theorem section_mapIds (entry : Entry) : section_ (entry.mapIds f) = section_ entry := by
  have hparameters (label : String) (parameters : List Parameter) :
      parameterList label (parameters.map (Parameter.mapId f)) =
        parameterList label parameters := by
    rw [parameterList, parameterList, List.isEmpty_map, List.map_map]
    rfl
  have hrequirements (requirements : List Tag.Requirement) :
      requirementList (requirements.map (Tag.Requirement.mapId f)) =
        requirementList requirements := by
    rw [requirementList, requirementList, List.isEmpty_map, List.map_map]
    rfl
  have hprops : (entry.mapIds f).props = entry.props.map (Parameter.mapId f) := rfl
  have harguments : (entry.mapIds f).arguments = entry.arguments.map (Parameter.mapId f) := rfl
  have hrequires : (entry.mapIds f).requires = entry.requires.map (Tag.Requirement.mapId f) := rfl
  unfold section_
  rw [hprops, harguments, hrequires, hparameters, hparameters, hrequirements]
  rfl

/-- The sections of entries do not depend on identities. -/
theorem flatMap_section_mapIds (entries : List Entry) :
    (entries.map (Entry.mapIds f)).flatMap section_ = entries.flatMap section_ := by
  rw [List.flatMap_map]
  exact List.flatMap_congr fun entry _ => section_mapIds entry

/-- The table of members does not depend on identities. -/
theorem memberTable_mapIds (members : List Entry) :
    memberTable (members.map (Entry.mapIds f)) = memberTable members := by
  rw [memberTable, memberTable, List.isEmpty_map, List.map_map]
  rfl

/-- A chapter with the identities of its entries renamed. -/
def Chapter.mapIds (f : String → String) (chapter : Chapter) : Chapter :=
  { heading := chapter.heading.mapIds f
    entries := chapter.entries.map (Entry.mapIds f) }

section Markdown

variable (hf : Function.Injective f)

include hf

/-- The members of a renamed entry that a page lists. -/
theorem membersOf_mapIds (atlas : Atlas) (entry : Entry) :
    membersOf (atlas.mapIds f) (entry.mapIds f) =
      (membersOf atlas entry).map (Entry.mapIds f) :=
  Entry.members_mapIds hf (Atlas.get?_mapIds hf atlas) entry

/-- The tour through a renamed atlas visits the renamed entries. -/
theorem tour_mapIds (atlas : Atlas) (rendered : List String) (waiting : List Entry) :
    tour (atlas.mapIds f) (rendered.map f) (waiting.map (Entry.mapIds f)) =
      (tour atlas rendered waiting).map (Entry.mapIds f) := by
  induction rendered, waiting using tour.induct atlas with
  | case1 rendered => simp [tour]
  | case2 rendered entry waiting hseen _ ih =>
    have hseen' : (entry.mapIds f).id ∈ rendered.map f := List.mem_map_of_mem hseen
    rw [List.map_cons, tour, dif_pos hseen', ih, tour, dif_pos hseen]
  | case3 rendered entry waiting hnew _ ih =>
    have hnew' : (entry.mapIds f).id ∉ rendered.map f := mt (List.mem_map_of_injective hf).mp hnew
    rw [List.map_append, ← membersOf_mapIds hf] at ih
    rw [List.map_cons, tour, dif_neg hnew', tour, dif_neg hnew]
    exact congrArg (List.cons (entry.mapIds f)) ih

/-- The chapters of renamed headings are the renamed chapters. -/
theorem chapters_mapIds (atlas : Atlas) (rendered : List String) (headings : List Entry) :
    chapters (atlas.mapIds f) (rendered.map f) (headings.map (Entry.mapIds f)) =
      (chapters atlas rendered headings).map (Chapter.mapIds f) := by
  induction headings generalizing rendered with
  | nil => rfl
  | cons heading rest ih =>
    have htour : tour (atlas.mapIds f) (rendered.map f) [heading.mapIds f] =
        (tour atlas rendered [heading]).map (Entry.mapIds f) :=
      tour_mapIds hf atlas rendered [heading]
    have hrendered : ((tour atlas rendered [heading]).map (Entry.mapIds f)).map Entry.id ++
        rendered.map f = ((tour atlas rendered [heading]).map Entry.id ++ rendered).map f := by
      rw [List.map_append, List.map_map, List.map_map]
      rfl
    rw [List.map_cons, chapters, chapters, htour, hrendered, ih, List.map_cons]
    rfl

/-- The lines of a renamed chapter are those of the chapter. -/
theorem chapterLines_mapIds (atlas : Atlas) (chapter : Chapter) :
    chapterLines (atlas.mapIds f) (chapter.mapIds f) = chapterLines atlas chapter := by
  rw [chapterLines, chapterLines, Chapter.mapIds, flatMap_section_mapIds, membersOf_mapIds hf,
    memberTable_mapIds]
  rfl

/-- The entries that no renamed chapter holds. -/
theorem others_mapIds (atlas : Atlas) (found : List Chapter) :
    others (atlas.mapIds f) (found.map (Chapter.mapIds f)) =
      (others atlas found).map (Entry.mapIds f) := by
  have hrendered : ((found.map (Chapter.mapIds f)).flatMap fun chapter =>
      chapter.entries.map Entry.id) =
      (found.flatMap fun chapter => chapter.entries.map Entry.id).map f := by
    refine flatMap_map_comm (fun chapter => ?_) found
    rw [Chapter.mapIds, List.map_map, List.map_map]
    rfl
  rw [others, others, hrendered]
  simp only [Atlas.mapIds, List.filter_map, Function.comp_def, Entry.mapIds_id,
    List.mem_map_of_injective hf]

/-- The Markdown page of a renamed atlas is that of the atlas. -/
theorem markdown_mapIds (atlas : Atlas) (title : String) :
    markdown (atlas.mapIds f) title = markdown atlas title := by
  have hchapters : chapters (atlas.mapIds f) [] (atlas.mapIds f).headings =
      (chapters atlas [] atlas.headings).map (Chapter.mapIds f) := by
    rw [Atlas.headings_mapIds]
    exact chapters_mapIds hf atlas [] atlas.headings
  have hlines : ((chapters atlas [] atlas.headings).map (Chapter.mapIds f)).flatMap
      (chapterLines (atlas.mapIds f)) =
      (chapters atlas [] atlas.headings).flatMap (chapterLines atlas) := by
    rw [List.flatMap_map]
    exact List.flatMap_congr fun chapter _ => chapterLines_mapIds hf atlas chapter
  have hothers (entries : List Entry) :
      otherLines (entries.map (Entry.mapIds f)) = otherLines entries := by
    rw [otherLines, otherLines, List.isEmpty_map, flatMap_section_mapIds]
  rw [markdown, markdown, markdownLines, markdownLines, hchapters]
  simp only [hlines, others_mapIds hf, hothers, List.isEmpty_map]

end Markdown

mutual

/-- The lines of a node do not show the entries that nodes refer to. -/
theorem nodeLines_mapSources (depth : ℕ) (hidden : Bool) :
    (node : Node) → nodeLines depth hidden (node.mapSources f) = nodeLines depth hidden node
  | .pending info => rfl
  | .resolved info children => by
    have hinner := nodesLines_mapSources (depth + 1) (info.kind = "content-wrapper") false children
    have hkind : (info.mapSources f).kind = info.kind := rfl
    rw [Node.mapSources, Node.mapSourcesAll_eq_map, nodeLines, nodeLines, List.isEmpty_map]
    simp only [hkind, hinner]
    rfl

/-- The lines of nodes do not show the entries that nodes refer to. -/
theorem nodesLines_mapSources (depth : ℕ) (panels hidden : Bool) :
    (nodes : List Node) →
      nodesLines depth panels hidden (nodes.map (Node.mapSources f)) =
        nodesLines depth panels hidden nodes
  | [] => rfl
  | node :: rest => by
    rw [List.map_cons, nodesLines, nodesLines, nodeLines_mapSources depth hidden node,
      nodesLines_mapSources depth panels panels rest]

end

/-- The children of the roots that have a given kind, after renaming. -/
theorem childrenOfKind_mapSources (forest : List Node) (kind : String) :
    childrenOfKind (forest.map (Node.mapSources f)) kind =
      (childrenOfKind forest kind).map (Node.mapSources f) := by
  refine flatMap_map_comm (fun root => ?_) forest
  have hchildren : (root.mapSources f).children = root.children.map (Node.mapSources f) := by
    cases root with
    | pending info => rfl
    | resolved info children => exact Node.mapSourcesAll_eq_map children
  have hkind (node : Node) : (node.mapSources f).info.kind = node.info.kind := by
    cases node <;> rfl
  rw [hchildren, List.filter_map]
  simp only [Function.comp_def, hkind]

/-- The HTML page of a forest does not show the entries that nodes refer to. -/
theorem html_mapSources (title : String) (settings : PageSettings String) (forest : List Node) :
    html title settings (forest.map (Node.mapSources f)) = html title settings forest := by
  rw [html, html, pageLines, pageLines, childrenOfKind_mapSources, childrenOfKind_mapSources,
    nodesLines_mapSources, nodesLines_mapSources]

end Page

namespace Element.Node

mutual

/-- Renaming the entries that nodes refer to keeps the identities of a tree. -/
theorem ids_mapSources : (node : Node) → (node.mapSources f).ids = node.ids
  | .pending info => rfl
  | .resolved info children => by
    rw [mapSources, mapSourcesAll_eq_map, ids, ids, idsAll_mapSources children]
    rfl

/-- Renaming the entries that nodes refer to keeps the identities of a forest. -/
theorem idsAll_mapSources :
    (forest : List Node) → idsAll (forest.map (mapSources f)) = idsAll forest
  | [] => rfl
  | node :: rest => by
    rw [List.map_cons, idsAll, idsAll, ids_mapSources node, idsAll_mapSources rest]

end

mutual

/-- Numbering a tree before or after renaming the entries that its nodes refer to. -/
theorem numberFrom_mapSources (supply : ℕ → String) (table : Renaming)
    (holder : Option (String × String)) (next : ℕ) :
    (node : Node) → numberFrom supply table holder next (node.mapSources f) =
      ((numberFrom supply table holder next node).1.mapSources f,
        (numberFrom supply table holder next node).2)
  | .pending info => rfl
  | .resolved info children => by
    have hchildren := numberAllFrom_mapSources supply table (some (info.id, supply next)) (next + 1)
      children
    have hid : (info.mapSources f).id = info.id := rfl
    simp only [mapSources, mapSourcesAll_eq_map, numberFrom, hid, hchildren]
    rfl

/-- Numbering a forest before or after renaming the entries that its nodes refer to. -/
theorem numberAllFrom_mapSources (supply : ℕ → String) (table : Renaming)
    (holder : Option (String × String)) (next : ℕ) :
    (forest : List Node) → numberAllFrom supply table holder next (forest.map (mapSources f)) =
      ((numberAllFrom supply table holder next forest).1.map (mapSources f),
        (numberAllFrom supply table holder next forest).2)
  | [] => rfl
  | node :: rest => by
    simp only [List.map_cons, numberAllFrom, numberFrom_mapSources supply table holder next node,
      numberAllFrom_mapSources supply table holder _ rest]

end

/-- Numbering a forest keeps the entries that its nodes refer to. -/
theorem numberAll_mapSources (supply : ℕ → String) (forest : List Node) :
    numberAll supply (forest.map (mapSources f)) =
      (numberAll supply forest).map (mapSources f) := by
  rw [numberAll, numberAll, idsAll_mapSources, numberAllFrom_mapSources]

end Element.Node

end DocAtlas
