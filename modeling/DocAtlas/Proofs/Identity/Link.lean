import DocAtlas.Atlas.Link
import DocAtlas.Proofs.FirstOccurrences
import DocAtlas.Proofs.Registry
import Mathlib.Data.List.Basic

/-!
# Linking does not read identities

Identities are only compared with each other. If they are renamed so that different ones stay
different, then every record changes in its identities alone: the entry of a renamed comment is the
renamed entry, the registries hold the renamed declarations under the same names, and the linked
atlas is the renamed atlas.
-/

namespace DocAtlas

section Records

variable (f : String → String)

/-- A comment with its identity renamed. -/
def Comment.mapId (comment : Comment) : Comment :=
  { comment with id := f comment.id }

/-- A parameter with its identity renamed. -/
def Parameter.mapId (parameter : Parameter) : Parameter :=
  { parameter with id := f parameter.id }

/-- A requirement with its identity renamed. -/
def Tag.Requirement.mapId (requirement : Tag.Requirement) : Tag.Requirement :=
  { requirement with id := f requirement.id }

/-- An edge with its identity renamed. -/
def Edge.mapId (edge : Edge) : Edge :=
  { edge with id := f edge.id }

/-- A declaration with its identity renamed. -/
def Declaration.mapId (declaration : Declaration) : Declaration :=
  { declaration with id := f declaration.id }

/-- A described file with its identity renamed. -/
def FileDeclaration.mapId (file : FileDeclaration) : FileDeclaration :=
  { file with id := f file.id }

/-- A tie with both of its identities renamed. -/
def Tie.mapIds (tie : Tie) : Tie :=
  { tie with member := f tie.member, owner := f tie.owner }

/-- An entry with all of its identities renamed: its own, those of its tag values and those of its
edges. -/
def Entry.mapIds (entry : Entry) : Entry :=
  { entry with
    id := f entry.id
    props := entry.props.map (Parameter.mapId f)
    arguments := entry.arguments.map (Parameter.mapId f)
    requires := entry.requires.map (Tag.Requirement.mapId f)
    parents := entry.parents.map (Edge.mapId f)
    children := entry.children.map (Edge.mapId f) }

/-- An atlas with all identities renamed. -/
def Atlas.mapIds (atlas : Atlas) : Atlas :=
  { entries := atlas.entries.map (Entry.mapIds f)
    namespaces := atlas.namespaces.map (Declaration.mapId f)
    modules := atlas.modules.map (Declaration.mapId f)
    files := atlas.files.map (FileDeclaration.mapId f) }

end Records

section Entries

variable {f : String → String}

/-- A renamed entry has the renamed identity. -/
@[simp] theorem Entry.mapIds_id (entry : Entry) : (entry.mapIds f).id = f entry.id := rfl

/-- The identity of a classified requirement is the given one. -/
theorem Tag.Requirement.classify_mapId (id value : String) :
    classify (f id) value = (classify id value).mapId f := by
  simp only [classify]
  split
  · rfl
  · split
    · split <;> rfl
    · rfl

/-- The entry of a renamed comment is the renamed entry. -/
theorem Entry.ofComment_mapId (comment : Comment) :
    ofComment (comment.mapId f) = (ofComment comment).mapIds f := by
  have hparameter (values : List String) : values.map (Parameter.ofValue (f comment.id)) =
      (values.map (Parameter.ofValue comment.id)).map (Parameter.mapId f) := by
    rw [List.map_map]
    rfl
  have hrequirement (values : List String) : values.map (Tag.Requirement.classify (f comment.id)) =
      (values.map (Tag.Requirement.classify comment.id)).map (Tag.Requirement.mapId f) := by
    rw [List.map_map]
    exact List.map_congr_left fun value _ => Tag.Requirement.classify_mapId comment.id value
  simp only [ofComment, Comment.mapId, Entry.mapIds, hparameter, hrequirement, List.map_nil]

end Entries

/-- What is collected from renamed elements is what is collected from the elements, renamed. -/
theorem flatMap_map_comm {α β : Type} {m : α → α} {r : β → β} {collect collect' : α → List β}
    (h : ∀ value, collect' (m value) = (collect value).map r) (values : List α) :
    (values.map m).flatMap collect' = (values.flatMap collect).map r := by
  rw [List.flatMap_map, List.map_flatMap]
  exact List.flatMap_congr fun value _ => h value

/-- Registries with the identities of all declarations renamed. -/
def Registries.mapIds (f : String → String) (registries : Registries) : Registries :=
  { namespaces := registries.namespaces.map (Declaration.mapId f)
    modules := registries.modules.map (Declaration.mapId f)
    files := registries.files.map (FileDeclaration.mapId f) }

section Entries

variable {f : String → String}

/-- A renamed entry declares the same namespaces. -/
theorem Entry.declaredNamespaces_mapIds (entry : Entry) :
    (entry.mapIds f).declaredNamespaces =
      entry.declaredNamespaces.map fun pair => (pair.1, pair.2.mapId f) := by
  rw [declaredNamespaces, declaredNamespaces, List.map_map]
  rfl

/-- A renamed entry declares the same modules. -/
theorem Entry.declaredModules_mapIds (entry : Entry) :
    (entry.mapIds f).declaredModules =
      entry.declaredModules.map fun pair => (pair.1, pair.2.mapId f) := by
  rw [declaredModules, declaredModules, List.map_map]
  rfl

/-- A renamed entry describes the same file. -/
theorem Entry.declaredFiles_mapIds (entry : Entry) :
    (entry.mapIds f).declaredFiles =
      entry.declaredFiles.map fun pair => (pair.1, pair.2.mapId f) := by
  have htype : (entry.mapIds f).type = entry.type := rfl
  rw [declaredFiles, declaredFiles, htype]
  split
  · split <;> rfl
  · rfl

/-- The registries of renamed entries are the renamed registries. -/
theorem Registries.ofEntries_mapIds (entries : List Entry) :
    ofEntries (entries.map (Entry.mapIds f)) = (ofEntries entries).mapIds f := by
  rw [ofEntries, ofEntries, mapIds, flatMap_map_comm Entry.declaredNamespaces_mapIds,
    flatMap_map_comm Entry.declaredModules_mapIds, flatMap_map_comm Entry.declaredFiles_mapIds,
    ← Registry.registerAll_map, ← Registry.registerAll_map, ← Registry.registerAll_map]
  rfl

end Entries

section Ties

variable {f : String → String} (hf : Function.Injective f)

/-- A reference means the renamed declaration. -/
theorem Registries.resolve?_mapIds (registries : Registries) (ref : MemberRef) :
    (registries.mapIds f).resolve? ref = (registries.resolve? ref).map (Declaration.mapId f) := by
  rw [resolve?, resolve?, mapIds]
  split
  · rw [Registry.get?_map]
  · split
    · rw [Registry.get?_map]
    · rfl

include hf

/-- Different edges stay different when their identities are renamed apart. -/
theorem Edge.mapId_injective : Function.Injective (Edge.mapId f) := by
  intro first second h
  cases first
  cases second
  simp only [mapId, Edge.mk.injEq] at h ⊢
  exact ⟨hf h.1, h.2⟩

namespace Registries

/-- A reference of a renamed entry gives the renamed tie. -/
theorem memberTie?_mapIds (registries : Registries) (entry : Entry) (ref : MemberRef) :
    (registries.mapIds f).memberTie? (entry.mapIds f) ref =
      (registries.memberTie? entry ref).map (Tie.mapIds f) := by
  rw [memberTie?, memberTie?, resolve?_mapIds]
  cases registries.resolve? ref with
  | none => rfl
  | some target =>
    have hiff : (target.mapId f).id = (entry.mapIds f).id ↔ target.id = entry.id := hf.eq_iff
    rw [Option.map_some, Option.bind_some, Option.bind_some]
    by_cases h : target.id = entry.id
    · rw [if_pos h, if_pos (hiff.mpr h), Option.map_none]
    · rw [if_neg h, if_neg (mt hiff.mp h)]
      rfl

/-- The references of a renamed entry give the renamed ties. -/
theorem memberTies_mapIds (registries : Registries) (entry : Entry) :
    (registries.mapIds f).memberTies (entry.mapIds f) =
      (registries.memberTies entry).map (Tie.mapIds f) := by
  rw [memberTies, memberTies, List.map_filterMap]
  exact List.filterMap_congr fun ref _ => memberTie?_mapIds hf registries entry ref

/-- A renamed entry has the renamed tie to the description of its file. -/
theorem fileTies_mapIds (registries : Registries) (entry : Entry) :
    (registries.mapIds f).fileTies (entry.mapIds f) =
      (registries.fileTies entry).map (Tie.mapIds f) := by
  have hroot : (entry.mapIds f).isRoot = entry.isRoot := rfl
  have horigin : (entry.mapIds f).origin = entry.origin := rfl
  have hget : (registries.mapIds f).files.get? entry.origin.filePath =
      (registries.files.get? entry.origin.filePath).map (FileDeclaration.mapId f) :=
    Registry.get?_map _ _ _
  rw [fileTies, fileTies, hroot, horigin, hget]
  split
  · rfl
  · cases registries.files.get? entry.origin.filePath with
    | none => rfl
    | some file =>
      have hiff : (file.mapId f).id = (entry.mapIds f).id ↔ file.id = entry.id := hf.eq_iff
      simp only [Option.map_some]
      by_cases h : file.id = entry.id
      · rw [if_pos h, if_pos (hiff.mpr h), List.map_nil]
      · rw [if_neg h, if_neg (mt hiff.mp h)]
        rfl

/-- The ties of renamed entries are the renamed ties. -/
theorem ties_mapIds (registries : Registries) (entries : List Entry) :
    (registries.mapIds f).ties (entries.map (Entry.mapIds f)) =
      (registries.ties entries).map (Tie.mapIds f) := by
  rw [ties, ties, flatMap_map_comm (memberTies_mapIds hf registries),
    flatMap_map_comm (fileTies_mapIds hf registries), List.map_append]

/-- A renamed entry has the renamed edges to what it belongs to. -/
theorem parentsOf_mapIds (registries : Registries) (entry : Entry) :
    (registries.mapIds f).parentsOf (entry.mapIds f) =
      (registries.parentsOf entry).map (Edge.mapId f) := by
  have hmap (ties : List Tie) : (ties.map (Tie.mapIds f)).map Tie.toOwner =
      (ties.map Tie.toOwner).map (Edge.mapId f) := by
    rw [List.map_map, List.map_map]
    rfl
  rw [parentsOf, parentsOf, memberTies_mapIds hf, fileTies_mapIds hf, ← List.map_append, hmap,
    eraseDups_map fun _ _ _ _ heq => Edge.mapId_injective hf heq]

end Registries

/-- A renamed entry has the renamed edges to what belongs to it. -/
theorem childrenOf_mapIds (ties : List Tie) (id : String) :
    childrenOf (ties.map (Tie.mapIds f)) (f id) = (childrenOf ties id).map (Edge.mapId f) := by
  have hfilter : (ties.map (Tie.mapIds f)).filter (·.owner = f id) =
      (ties.filter (·.owner = id)).map (Tie.mapIds f) := by
    rw [List.filter_map]
    refine congrArg (List.map (Tie.mapIds f)) (List.filter_congr fun tie _ => ?_)
    simp [Tie.mapIds, hf.eq_iff]
  have hmap : ((ties.filter (·.owner = id)).map (Tie.mapIds f)).map Tie.toMember =
      ((ties.filter (·.owner = id)).map Tie.toMember).map (Edge.mapId f) := by
    rw [List.map_map, List.map_map]
    rfl
  rw [childrenOf, childrenOf, hfilter, hmap,
    eraseDups_map fun _ _ _ _ heq => Edge.mapId_injective hf heq]

/-- Renamed entries get the renamed edges. -/
theorem connect_mapIds (registries : Registries) (ties : List Tie) (entries : List Entry) :
    connect (registries.mapIds f) (ties.map (Tie.mapIds f)) (entries.map (Entry.mapIds f)) =
      (connect registries ties entries).map (Entry.mapIds f) := by
  induction entries with
  | nil => rfl
  | cons entry rest ih =>
    have hmem : (entry.mapIds f).id ∈ (rest.map (Entry.mapIds f)).map Entry.id ↔
        entry.id ∈ rest.map Entry.id := by
      have hids : (rest.map (Entry.mapIds f)).map Entry.id = (rest.map Entry.id).map f := by
        rw [List.map_map, List.map_map]
        rfl
      rw [hids]
      exact List.mem_map_of_injective hf
    rw [List.map_cons, connect, connect, ih, List.map_cons, Registries.parentsOf_mapIds hf]
    by_cases h : entry.id ∈ rest.map Entry.id
    · rw [if_pos h, if_pos (hmem.mpr h)]
      rfl
    · rw [if_neg h, if_neg (mt hmem.mp h), Entry.mapIds_id, childrenOf_mapIds hf]
      rfl

/-- Linking renamed comments gives the renamed atlas. -/
theorem Atlas.link_map_mapId (comments : List Comment) :
    link (comments.map (Comment.mapId f)) = (link comments).mapIds f := by
  have hentries : (comments.map (Comment.mapId f)).map Entry.ofComment =
      (comments.map Entry.ofComment).map (Entry.mapIds f) := by
    rw [List.map_map, List.map_map]
    exact List.map_congr_left fun comment _ => Entry.ofComment_mapId comment
  rw [link, link, hentries]
  simp only [ofEntries, Registries.ofEntries_mapIds, Registries.ties_mapIds hf, connect_mapIds hf,
    mapIds]
  simp only [Registries.mapIds, Registry.values_map]

end Ties

end DocAtlas
