import DocAtlas.Proofs.Atlas.Parents
import DocAtlas.Proofs.FirstOccurrences

/-!
# Edges and their mirror images

A tie between two entries is recorded twice, at the member and at its owner. With distinct
identities the two records always agree: an entry has an edge to a member exactly if the member has
the edge back. The edges to members stand in the order of the members, those of references before
those of files. No list of edges holds one twice, and no entry has an edge to itself.
-/

namespace DocAtlas

/-- What every tie of an entry says about the entry. -/
structure Tie.Of (entry : Entry) (tie : Tie) : Prop where
  member : tie.member = entry.id
  kind : tie.kind = entry.kind
  owner : tie.owner ≠ entry.id

namespace Registries

/-- The ties of an entry's references come from namespaces and modules. -/
theorem of_mem_memberTies {registries : Registries} {entry : Entry} {tie : Tie}
    (h : tie ∈ registries.memberTies entry) :
    tie.Of entry ∧ (tie.association = "namespace" ∨ tie.association = "module") := by
  obtain ⟨ref, _, href⟩ := List.mem_filterMap.mp h
  obtain ⟨target, htarget, htie⟩ := Option.bind_eq_some_iff.mp href
  have hkind : ref.kind = "namespace" ∨ ref.kind = "module" := by
    by_contra hkind
    rw [not_or] at hkind
    simp [resolve?, hkind.1, hkind.2] at htarget
  split at htie
  · simp at htie
  · next howner =>
    obtain rfl := Option.some.inj htie
    exact ⟨⟨rfl, rfl, howner⟩, hkind⟩

/-- The tie of an entry's file comes from the file. -/
theorem of_mem_fileTies {registries : Registries} {entry : Entry} {tie : Tie}
    (h : tie ∈ registries.fileTies entry) : tie.Of entry ∧ tie.association = "file" := by
  unfold fileTies at h
  split at h
  · simp at h
  · split at h
    · simp at h
    · split at h
      · simp at h
      · next howner =>
        obtain rfl := List.mem_singleton.mp h
        exact ⟨⟨rfl, rfl, howner⟩, rfl⟩

/-- An entry has at most one tie of its file. -/
theorem length_fileTies_le (registries : Registries) (entry : Entry) :
    (registries.fileTies entry).length ≤ 1 := by
  unfold fileTies
  split
  · simp
  · split
    · simp
    · split <;> simp

/-- Every tie belongs to one of the entries, as a tie of its references or of its file. -/
theorem mem_ties_iff {registries : Registries} {entries : List Entry} {tie : Tie} :
    tie ∈ registries.ties entries ↔
      ∃ entry ∈ entries, tie ∈ registries.memberTies entry ++ registries.fileTies entry := by
  simp only [ties, List.mem_append, List.mem_flatMap]
  constructor
  · intro h
    rcases h with ⟨entry, hentry, htie⟩ | ⟨entry, hentry, htie⟩
    · exact ⟨entry, hentry, Or.inl htie⟩
    · exact ⟨entry, hentry, Or.inr htie⟩
  · intro h
    rcases h with ⟨entry, hentry, htie | htie⟩
    · exact Or.inl ⟨entry, hentry, htie⟩
    · exact Or.inr ⟨entry, hentry, htie⟩

/-- Every tie of an entry starts at the entry. -/
theorem of_mem_append_ties {registries : Registries} {entry : Entry} {tie : Tie}
    (h : tie ∈ registries.memberTies entry ++ registries.fileTies entry) : tie.Of entry := by
  rcases List.mem_append.mp h with h | h
  · exact (of_mem_memberTies h).1
  · exact (of_mem_fileTies h).1

/-- An edge to an owner comes from a tie of the entry. -/
theorem mem_parentsOf_iff {registries : Registries} {entry : Entry} {edge : Edge} :
    edge ∈ registries.parentsOf entry ↔
      ∃ tie ∈ registries.memberTies entry ++ registries.fileTies entry, tie.toOwner = edge := by
  rw [parentsOf, List.mem_eraseDups, List.mem_map]

end Registries

/-- An edge to a member comes from a tie to the entry. -/
theorem mem_childrenOf_iff {ties : List Tie} {id : String} {edge : Edge} :
    edge ∈ childrenOf ties id ↔ ∃ tie ∈ ties, tie.owner = id ∧ tie.toMember = edge := by
  simp only [childrenOf, List.mem_eraseDups, List.mem_map, List.mem_filter, decide_eq_true_eq,
    and_assoc]

/-- An edge to a member is the mirror image of the member's edge to its owner. -/
theorem mem_childrenOf_ties_iff (registries : Registries) {entries : List Entry}
    (hdistinct : (entries.map Entry.id).Nodup) {member : Entry} (hmember : member ∈ entries)
    (owner : String) (kind : Option String) (association : String) (description : Option String) :
    { id := member.id, kind, association, description } ∈
        childrenOf (registries.ties entries) owner ↔
      { id := owner, kind, association, description } ∈ registries.parentsOf member := by
  rw [mem_childrenOf_iff, Registries.mem_parentsOf_iff]
  constructor
  · intro h
    obtain ⟨tie, htie, howner, hedge⟩ := h
    obtain ⟨entry, hentry, htie⟩ := Registries.mem_ties_iff.mp htie
    have hid : entry.id = member.id := by
      rw [← (Registries.of_mem_append_ties htie).member]
      exact congrArg Edge.id hedge
    obtain rfl := List.inj_on_of_nodup_map hdistinct hentry hmember hid
    simp only [Tie.toMember, Edge.mk.injEq] at hedge
    obtain ⟨_, rfl, rfl, rfl⟩ := hedge
    exact ⟨tie, htie, by rw [← howner]; rfl⟩
  · intro h
    obtain ⟨tie, htie, hedge⟩ := h
    simp only [Tie.toOwner, Edge.mk.injEq] at hedge
    obtain ⟨rfl, rfl, rfl, rfl⟩ := hedge
    have hid := (Registries.of_mem_append_ties htie).member
    exact ⟨tie, Registries.mem_ties_iff.mpr ⟨member, hmember, htie⟩, rfl, by rw [← hid]; rfl⟩

/-- With distinct identities every entry gets the edges to its own members. -/
theorem connect_of_nodup (registries : Registries) (ties : List Tie) {entries : List Entry}
    (hdistinct : (entries.map Entry.id).Nodup) :
    connect registries ties entries = entries.map fun entry =>
      { entry with
        parents := registries.parentsOf entry
        children := childrenOf ties entry.id } := by
  induction entries with
  | nil => rfl
  | cons first rest ih =>
    rw [List.map_cons, List.nodup_cons] at hdistinct
    rw [connect, if_neg hdistinct.1, ih hdistinct.2, List.map_cons]

/-- Whatever the identities, an entry gets its own edges to owners, and edges to its own members
or none. -/
theorem exists_of_mem_connect {registries : Registries} {ties : List Tie} {entries : List Entry}
    {entry : Entry} (h : entry ∈ connect registries ties entries) :
    ∃ source ∈ entries, entry.id = source.id ∧ entry.parents = registries.parentsOf source ∧
      (entry.children = [] ∨ entry.children = childrenOf ties source.id) := by
  obtain ⟨i, hi⟩ := List.mem_iff_getElem?.mp h
  rw [getElem?_connect] at hi
  obtain ⟨source, hsource, rfl⟩ := Option.map_eq_some_iff.mp hi
  refine ⟨source, List.mem_of_getElem? hsource, rfl, rfl, ?_⟩
  exact ite_eq_or_eq _ _ _

/-- Every edge between two of the entries is recorded at both ends, with the kind of the member,
and both ends of every edge are entries. -/
structure Mirrored (entries : List Entry) : Prop where
  mem_children_iff : ∀ owner ∈ entries, ∀ member ∈ entries, ∀ kind association description,
    { id := member.id, kind, association, description } ∈ owner.children ↔
      { id := owner.id, kind, association, description } ∈ member.parents
  kind_eq : ∀ owner ∈ entries, ∀ member ∈ entries, ∀ edge ∈ owner.children,
    edge.id = member.id → edge.kind = member.kind
  known : ∀ entry ∈ entries, ∀ edge ∈ entry.parents ++ entry.children,
    edge.id ∈ entries.map Entry.id

/-- Edges to members, listed by the position of the members: the ones of namespaces and modules
first, the ones of files after them. -/
def MembersInOrder (position : String → ℕ) (edges : List Edge) : Prop :=
  ∃ references files, edges = references ++ files ∧
    (∀ edge ∈ references, edge.association = "namespace" ∨ edge.association = "module") ∧
    (∀ edge ∈ files, edge.association = "file") ∧
    references.Pairwise (fun first second => position first.id ≤ position second.id) ∧
    files.Pairwise (fun first second => position first.id < position second.id)

/-- Entries with distinct identities stand at increasing positions. -/
theorem pairwise_idxOf_lt {entries : List Entry} (hdistinct : (entries.map Entry.id).Nodup) :
    entries.Pairwise fun first second =>
      (entries.map Entry.id).idxOf first.id < (entries.map Entry.id).idxOf second.id := by
  have hposition (i : ℕ) (hi : i < entries.length) :
      (entries.map Entry.id).idxOf entries[i].id = i := by
    have h := hdistinct.idxOf_getElem i (by simpa using hi)
    rwa [List.getElem_map] at h
  rw [List.pairwise_iff_getElem]
  intro i j hi hj hij
  rwa [hposition i hi, hposition j hj]

/-- Ties that are listed entry by entry, each under its own member, follow the positions of their
members as the ties of every single entry do. -/
theorem pairwise_flatMap_ties {entries : List Entry} (hdistinct : (entries.map Entry.id).Nodup)
    {ties : Entry → List Tie} (hmember : ∀ entry, ∀ tie ∈ ties entry, tie.member = entry.id)
    {R : ℕ → ℕ → Prop} (hlt : ∀ i j, i < j → R i j)
    (hown : ∀ entry, (ties entry).Pairwise fun first second =>
      R ((entries.map Entry.id).idxOf first.member) ((entries.map Entry.id).idxOf second.member)) :
    (entries.flatMap ties).Pairwise fun first second =>
      R ((entries.map Entry.id).idxOf first.member)
        ((entries.map Entry.id).idxOf second.member) := by
  rw [List.pairwise_flatMap]
  refine ⟨fun entry _ => hown entry, (pairwise_idxOf_lt hdistinct).imp ?_⟩
  intro before after hbefore first hfirst second hsecond
  rw [hmember before first hfirst, hmember after second hsecond]
  exact hlt _ _ hbefore

/-- The ties of references follow the positions of their members. -/
theorem pairwise_flatMap_memberTies (registries : Registries) {entries : List Entry}
    (hdistinct : (entries.map Entry.id).Nodup) :
    (entries.flatMap registries.memberTies).Pairwise fun first second =>
      (entries.map Entry.id).idxOf first.toMember.id ≤
        (entries.map Entry.id).idxOf second.toMember.id := by
  have hmember (entry : Entry) : ∀ tie ∈ registries.memberTies entry, tie.member = entry.id :=
    fun _ htie => (Registries.of_mem_memberTies htie).1.member
  refine pairwise_flatMap_ties hdistinct hmember (fun _ _ hlt => Nat.le_of_lt hlt) ?_
  intro entry
  apply List.pairwise_of_forall_mem_list
  intro first hfirst second hsecond
  exact Nat.le_of_eq (by rw [hmember entry first hfirst, hmember entry second hsecond])

/-- The ties of files follow the positions of their members, and no two have one member. -/
theorem pairwise_flatMap_fileTies (registries : Registries) {entries : List Entry}
    (hdistinct : (entries.map Entry.id).Nodup) :
    (entries.flatMap registries.fileTies).Pairwise fun first second =>
      (entries.map Entry.id).idxOf first.toMember.id <
        (entries.map Entry.id).idxOf second.toMember.id := by
  have hmember (entry : Entry) : ∀ tie ∈ registries.fileTies entry, tie.member = entry.id :=
    fun _ htie => (Registries.of_mem_fileTies htie).1.member
  refine pairwise_flatMap_ties hdistinct hmember (fun _ _ hlt => hlt) ?_
  intro entry
  have hone := registries.length_fileTies_le entry
  match hties : registries.fileTies entry with
  | [] => exact List.Pairwise.nil
  | [_] => exact List.pairwise_singleton _ _
  | _ :: _ :: _ => simp [hties] at hone

/-- The edges of an entry to its members stand in the order of the members. -/
theorem membersInOrder_childrenOf (registries : Registries) {entries : List Entry}
    (hdistinct : (entries.map Entry.id).Nodup) (owner : String) :
    MembersInOrder (fun id => (entries.map Entry.id).idxOf id)
      (childrenOf (registries.ties entries) owner) := by
  rw [childrenOf, Registries.ties, List.filter_append, List.map_append, List.eraseDups_append]
  refine ⟨_, _, rfl, ?_, ?_, ?_, ?_⟩
  · intro edge hedge
    obtain ⟨tie, htie, rfl⟩ := List.mem_map.mp (List.mem_eraseDups.mp hedge)
    obtain ⟨entry, _, htie⟩ := List.mem_flatMap.mp (List.mem_of_mem_filter htie)
    exact (Registries.of_mem_memberTies htie).2
  · intro edge hedge
    have hedge := List.filter_sublist.mem (List.mem_eraseDups.mp hedge)
    obtain ⟨tie, htie, rfl⟩ := List.mem_map.mp hedge
    obtain ⟨entry, _, htie⟩ := List.mem_flatMap.mp (List.mem_of_mem_filter htie)
    exact (Registries.of_mem_fileTies htie).2
  · refine List.Pairwise.sublist (eraseDups_sublist _) ?_
    rw [List.pairwise_map]
    exact (pairwise_flatMap_memberTies registries hdistinct).filter _
  · refine List.Pairwise.sublist ((eraseDups_sublist _).trans List.filter_sublist) ?_
    rw [List.pairwise_map]
    exact (pairwise_flatMap_fileTies registries hdistinct).filter _

/-- An edge to a member leads to one of the entries and carries its kind. -/
theorem exists_of_mem_childrenOf_ties {registries : Registries} {entries : List Entry}
    {owner : String} {edge : Edge} (h : edge ∈ childrenOf (registries.ties entries) owner) :
    owner ≠ edge.id ∧ ∃ member ∈ entries, edge.id = member.id ∧ edge.kind = member.kind := by
  obtain ⟨tie, htie, rfl, rfl⟩ := mem_childrenOf_iff.mp h
  obtain ⟨member, hmember, htie⟩ := Registries.mem_ties_iff.mp htie
  have hof := Registries.of_mem_append_ties htie
  refine ⟨?_, member, hmember, hof.member, hof.kind⟩
  change tie.owner ≠ tie.member
  rw [hof.member]
  exact hof.owner

/-- An edge that is read off the comments leads to a comment. -/
theorem Comment.id_mem_of_mem_ownerEdges {comments : List Comment} {comment : Comment}
    {edge : Edge} (h : edge ∈ comment.ownerEdges comments) :
    edge.id ∈ comments.map Comment.id := by
  rcases List.mem_append.mp h with h | h
  · obtain ⟨ref, _, href⟩ := List.mem_filterMap.mp h
    obtain ⟨declarer, hdeclarer, rfl⟩ := Option.map_eq_some_iff.mp href
    have hfound := List.mem_of_find?_eq_some (Option.eq_some_of_filter_eq_some hdeclarer)
    exact List.mem_map_of_mem hfound
  · rw [Option.mem_toList, Comment.fileEdge?] at h
    split at h
    · simp at h
    · obtain ⟨⟨describer, note⟩, hdescriber, rfl⟩ := Option.map_eq_some_iff.mp h
      obtain ⟨found, hfound, hnote⟩ :=
        List.exists_of_findSome?_eq_some (Option.eq_some_of_filter_eq_some hdescriber)
      obtain ⟨_, _, heq⟩ := Option.map_eq_some_iff.mp hnote
      obtain rfl := congrArg Prod.fst heq
      exact List.mem_map_of_mem hfound

namespace Atlas

/-- With distinct identities the edges of the entries mirror each other. -/
theorem mirrored_link {comments : List Comment} (hdistinct : (comments.map Comment.id).Nodup) :
    Mirrored (link comments).entries := by
  have hids : ((comments.map Entry.ofComment).map Entry.id).Nodup := by
    rw [List.map_map]
    exact hdistinct
  have hlink : (link comments).entries = _ := connect_of_nodup _ _ hids
  constructor
  · intro owner howner member hmember kind association description
    rw [hlink] at howner hmember
    obtain ⟨owner, _, rfl⟩ := List.mem_map.mp howner
    obtain ⟨member, hsource, rfl⟩ := List.mem_map.mp hmember
    exact mem_childrenOf_ties_iff _ hids hsource owner.id kind association description
  · intro owner howner member hmember edge hedge hid
    rw [hlink] at howner hmember
    obtain ⟨owner, _, rfl⟩ := List.mem_map.mp howner
    obtain ⟨member, hsource, rfl⟩ := List.mem_map.mp hmember
    obtain ⟨_, found, hfound, hfoundId, hkind⟩ := exists_of_mem_childrenOf_ties hedge
    obtain rfl := List.inj_on_of_nodup_map hids hfound hsource (hfoundId.symm.trans hid)
    exact hkind
  · intro entry hentry edge hedge
    rw [map_id_link]
    rw [hlink] at hentry
    obtain ⟨source, hsource, rfl⟩ := List.mem_map.mp hentry
    obtain ⟨comment, _, rfl⟩ := List.mem_map.mp hsource
    rcases List.mem_append.mp hedge with hedge | hedge
    · rw [Registries.parentsOf_ofComments] at hedge
      exact Comment.id_mem_of_mem_ownerEdges (List.mem_eraseDups.mp hedge)
    · obtain ⟨_, member, hmember, hid, _⟩ := exists_of_mem_childrenOf_ties hedge
      obtain ⟨comment, hcomment, rfl⟩ := List.mem_map.mp hmember
      rw [hid]
      exact List.mem_map_of_mem hcomment

/-- With distinct identities the edges to members stand in the order of the comments. -/
theorem membersInOrder_link {comments : List Comment}
    (hdistinct : (comments.map Comment.id).Nodup) {entry : Entry}
    (hentry : entry ∈ (link comments).entries) :
    MembersInOrder (fun id => (comments.map Comment.id).idxOf id) entry.children := by
  have hmap : (comments.map Entry.ofComment).map Entry.id = comments.map Comment.id := by
    rw [List.map_map]
    rfl
  have hids : ((comments.map Entry.ofComment).map Entry.id).Nodup := by
    rw [hmap]
    exact hdistinct
  have hlink : (link comments).entries = _ := connect_of_nodup _ _ hids
  rw [hlink] at hentry
  obtain ⟨source, _, rfl⟩ := List.mem_map.mp hentry
  have h := membersInOrder_childrenOf (Registries.ofEntries (comments.map Entry.ofComment)) hids
    source.id
  rw [hmap] at h
  exact h

/-- Linking records every tie at both ends. If the comments have distinct identities, the edges of
their entries mirror each other, and the edges to members stand in the order of the comments,
those of references before those of files. Whatever the identities, no edge is recorded twice, and
no entry has an edge to its own identity. -/
theorem link_edges (comments : List Comment) :
    ((comments.map Comment.id).Nodup →
      Mirrored (link comments).entries ∧
        ∀ entry ∈ (link comments).entries,
          MembersInOrder (fun id => (comments.map Comment.id).idxOf id) entry.children) ∧
      ∀ entry ∈ (link comments).entries, entry.parents.Nodup ∧ entry.children.Nodup ∧
        ∀ edge ∈ entry.parents ++ entry.children, edge.id ≠ entry.id := by
  constructor
  · intro hdistinct
    exact ⟨mirrored_link hdistinct, fun _ hentry => membersInOrder_link hdistinct hentry⟩
  · intro entry hentry
    obtain ⟨source, _, hid, hparents, hchildren⟩ := exists_of_mem_connect hentry
    refine ⟨?_, ?_, ?_⟩
    · rw [hparents]
      exact nodup_eraseDups _
    · rcases hchildren with h | h <;> rw [h]
      · exact List.nodup_nil
      · exact nodup_eraseDups _
    · intro edge hedge
      rw [hid]
      rcases List.mem_append.mp hedge with hedge | hedge
      · rw [hparents] at hedge
        obtain ⟨tie, htie, rfl⟩ := Registries.mem_parentsOf_iff.mp hedge
        exact (Registries.of_mem_append_ties htie).owner
      · rcases hchildren with h | h <;> rw [h] at hedge
        · simp at hedge
        · exact (exists_of_mem_childrenOf_ties hedge).1.symm

end Atlas

namespace Comment

/-- A comment with an identity, the path of its file and values under the names of tags. -/
def tagged (id path : String) (tags : List (String × List String)) : Comment :=
  { id
    fileName := path
    filePath := path
    tags := tags.map fun (name, values) =>
      (name, values.map fun description => { line := "", name, description })
    created := ""
    modified := ""
    text := "" }

/-- A namespace and a module that belong to each other, and a comment that names both, one of them
twice, and stands in the file that the module describes. -/
def circle : List Comment :=
  [tagged "a" "ui.ts" [("namespace", ["{ui}"]), ("memberof", ["module: core"])],
   tagged "b" "core.ts"
    [("module", ["core"]), ("file", ["start"]), ("memberof", ["namespace:ui"])],
   tagged "c" "core.ts" [("memberof", ["module:core", "namespace:ui", "module:core"])]]

end Comment

/-- The edges of a circle of comments mirror each other. -/
theorem Atlas.link_edges_circle :
    (Comment.circle.map Comment.id).Nodup ∧
      Mirrored (link Comment.circle).entries ∧
      (link Comment.circle).entries.map (fun entry => entry.children.map Edge.id) =
        [["b", "c"], ["a", "c", "c"], []] ∧
      (link Comment.circle).entries.map (fun entry => entry.parents.map Edge.id) =
        [["b"], ["a"], ["b", "a", "b"]] :=
  ⟨by decide, ((link_edges Comment.circle).1 (by decide)).1, by decide, by decide⟩

end DocAtlas
