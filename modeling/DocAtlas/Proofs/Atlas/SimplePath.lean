import DocAtlas.Element.Forest
import DocAtlas.Proofs.Atlas.Members
import Mathlib.Data.List.Chain

/-!
# Simple paths

A simple path follows links from entry to entry and never comes back to an entry. Extending a path
in every way, depth first and in the order of the edges, lists every simple path that begins with
it exactly once, however the links run in circles.
-/

namespace DocAtlas.Atlas

variable {atlas : Atlas}

/-- A path from a root along links, through distinct entries. -/
structure SimplePath (atlas : Atlas) (root : Entry) (path : List Entry) : Prop where
  starts : path.head? = some root
  linked : path.IsChain atlas.Links
  distinct : path.Nodup

/-- Two paths part at an entry, where the first one takes the earlier edge. -/
def PartsBefore (first second : List Entry) : Prop :=
  ∃ common fork left right, common ++ [fork, left] <+: first ∧ common ++ [fork, right] <+: second ∧
    (fork.children.map Edge.id).idxOf left.id < (fork.children.map Edge.id).idxOf right.id

/-- Depth-first order of paths: a path comes before the paths that continue it, and of two paths
that part the one that takes the earlier edge comes first. -/
def Precedes (first second : List Entry) : Prop :=
  (first <+: second ∧ first ≠ second) ∨ PartsBefore first second

/-- All ways to continue a path to its last entry along links to entries that are not on it,
depth first. -/
def extensions (atlas : Atlas) (path : List Entry) (last : Entry) : List (List Entry) :=
  path :: ((last.members atlas.get?).filter fun member =>
      member.id ∉ path.map Entry.id).attach.flatMap
    fun ⟨member, _⟩ => atlas.extensions (path ++ [member]) member
termination_by atlas.offPath (path.map Entry.id)
decreasing_by
  obtain ⟨hmember, hnew⟩ := List.mem_filter.mp (by assumption)
  have hentry := Entry.mem_of_mem_members (fun _ _ => mem_of_get?) hmember
  have := atlas.offPath_lt (path.map Entry.id) hentry (by simpa using hnew)
  simpa using this

/-- The ways to continue a path: stop, or take a link to an entry that is not on it and go on. -/
theorem extensions_eq (path : List Entry) (last : Entry) :
    atlas.extensions path last =
      path :: ((last.members atlas.get?).filter fun member =>
        member.id ∉ path.map Entry.id).flatMap
          fun member => atlas.extensions (path ++ [member]) member := by
  rw [extensions]
  simp

/-- A path that an extension may begin with: it follows links through distinct entries of the
atlas to its last entry. -/
structure Trail (atlas : Atlas) (path : List Entry) (last : Entry) : Prop where
  known : ∀ entry ∈ path, entry ∈ atlas.entries
  ends : path.getLast? = some last
  linked : path.IsChain atlas.Links
  distinct : path.Nodup

/-- An entry of the atlas is a trail of its own. -/
theorem Trail.single {root : Entry} (hroot : root ∈ atlas.entries) : atlas.Trail [root] root where
  known := by simpa using hroot
  ends := rfl
  linked := .singleton root
  distinct := List.nodup_singleton root

/-- A link to an entry that is not on a trail continues the trail. -/
theorem Trail.step {path : List Entry} {last member : Entry} (htrail : atlas.Trail path last)
    (hlink : atlas.Links last member) (hnew : member ∉ path) :
    atlas.Trail (path ++ [member]) member where
  known := by
    intro entry hentry
    rcases List.mem_append.mp hentry with hentry | hentry
    · exact htrail.known entry hentry
    · rw [List.mem_singleton.mp hentry]
      exact hlink.1
  ends := by simp
  linked := by
    refine List.isChain_append.mpr ⟨htrail.linked, .singleton member, ?_⟩
    intro x hx y hy
    rw [htrail.ends] at hx
    simp only [Option.mem_def, Option.some.injEq, List.head?_cons] at hx hy
    rw [← hx, ← hy]
    exact hlink
  distinct := by
    refine List.nodup_append.mpr ⟨htrail.distinct, List.nodup_singleton member, ?_⟩
    intro a ha b hb hab
    rw [hab, List.mem_singleton.mp hb] at ha
    exact hnew ha

/-- An entry is off a trail exactly if its identity is. -/
theorem Trail.id_mem_iff (hdistinct : (atlas.entries.map Entry.id).Nodup) {path : List Entry}
    {last member : Entry} (htrail : atlas.Trail path last) (hmember : member ∈ atlas.entries) :
    member.id ∈ path.map Entry.id ↔ member ∈ path := by
  constructor
  · intro h
    obtain ⟨entry, hentry, hid⟩ := List.mem_map.mp h
    rwa [← eq_of_id_eq hdistinct (htrail.known entry hentry) hmember hid]
  · intro h
    exact List.mem_map_of_mem h

/-- The entries that continue a trail are those its last entry is linked to and that are not on
it. -/
theorem Trail.mem_next_iff (hdistinct : (atlas.entries.map Entry.id).Nodup) {path : List Entry}
    {last member : Entry} (htrail : atlas.Trail path last) :
    member ∈ (last.members atlas.get?).filter (fun member => member.id ∉ path.map Entry.id) ↔
      atlas.Links last member ∧ member ∉ path := by
  rw [List.mem_filter, mem_members_iff hdistinct, decide_eq_true_iff]
  refine and_congr_right fun hlink => not_congr ?_
  exact htrail.id_mem_iff hdistinct hlink.1

/-- The extensions of a trail are the paths through distinct entries that begin with it. -/
theorem mem_extensions_iff (hdistinct : (atlas.entries.map Entry.id).Nodup) {path : List Entry}
    {last : Entry} (htrail : atlas.Trail path last) {walk : List Entry} :
    walk ∈ atlas.extensions path last ↔
      path <+: walk ∧ walk.IsChain atlas.Links ∧ walk.Nodup := by
  induction path, last using extensions.induct atlas with
  | case1 path last ih =>
    rw [extensions_eq, List.mem_cons, List.mem_flatMap]
    constructor
    · intro h
      rcases h with rfl | ⟨member, hmember, hwalk⟩
      · exact ⟨List.prefix_rfl, htrail.linked, htrail.distinct⟩
      · obtain ⟨hlink, hnew⟩ := (htrail.mem_next_iff hdistinct).mp hmember
        obtain ⟨hbegin, hlinked, hnodup⟩ :=
          (ih member hmember (htrail.step hlink hnew)).mp hwalk
        exact ⟨(List.prefix_append path [member]).trans hbegin, hlinked, hnodup⟩
    · intro h
      obtain ⟨⟨rest, rfl⟩, hlinked, hnodup⟩ := h
      cases rest with
      | nil => exact Or.inl (List.append_nil path)
      | cons member rest =>
        have hlink : atlas.Links last member :=
          (List.isChain_append.mp hlinked).2.2 last htrail.ends member rfl
        have hnew : member ∉ path := fun hmem =>
          (List.nodup_append.mp hnodup).2.2 member hmem member List.mem_cons_self rfl
        have hmember := (htrail.mem_next_iff hdistinct).mpr ⟨hlink, hnew⟩
        refine Or.inr ⟨member, hmember, (ih member hmember (htrail.step hlink hnew)).mpr ?_⟩
        exact ⟨⟨rest, by simp⟩, hlinked, hnodup⟩

/-- The extensions of a trail are listed depth first. -/
theorem pairwise_extensions (hdistinct : (atlas.entries.map Entry.id).Nodup) {path : List Entry}
    {last : Entry} (htrail : atlas.Trail path last) :
    (atlas.extensions path last).Pairwise Precedes := by
  induction path, last using extensions.induct atlas with
  | case1 path last ih =>
    have hnext {member : Entry} (hmember : member ∈ (last.members atlas.get?).filter
        fun member => member.id ∉ path.map Entry.id) : atlas.Trail (path ++ [member]) member := by
      obtain ⟨hlink, hnew⟩ := (htrail.mem_next_iff hdistinct).mp hmember
      exact htrail.step hlink hnew
    have hbegins {member : Entry} {walk : List Entry} (hmember : member ∈
        (last.members atlas.get?).filter fun member => member.id ∉ path.map Entry.id)
        (hwalk : walk ∈ atlas.extensions (path ++ [member]) member) :
        path ++ [member] <+: walk :=
      ((mem_extensions_iff hdistinct (hnext hmember)).mp hwalk).1
    rw [extensions_eq, List.pairwise_cons, List.pairwise_flatMap]
    refine ⟨?_, fun member hmember => ih member hmember (hnext hmember), ?_⟩
    · intro walk hwalk
      obtain ⟨member, hmember, hwalk⟩ := List.mem_flatMap.mp hwalk
      have hbegin := hbegins hmember hwalk
      refine Or.inl ⟨(List.prefix_append path [member]).trans hbegin, ?_⟩
      intro heq
      obtain rfl := heq
      have hlength := hbegin.length_le
      rw [List.length_append, List.length_singleton] at hlength
      omega
    · refine ((pairwise_members hdistinct last).filter _).imp_of_mem ?_
      intro left right hleft hright hlt first hfirst second hsecond
      obtain ⟨common, rfl⟩ := List.getLast?_eq_some_iff.mp htrail.ends
      refine Or.inr ⟨common, last, left, right, ?_, ?_, hlt⟩
      · simpa using hbegins hleft hfirst
      · simpa using hbegins hright hsecond

/-- A path takes only one edge after a common beginning. -/
theorem eq_of_append_pair {common path : List Entry} {fork left right : Entry}
    (hleft : common ++ [fork, left] <+: path) (hright : common ++ [fork, right] <+: path) :
    left = right := by
  have heq : common ++ [fork, left] = common ++ [fork, right] :=
    (List.prefix_of_prefix_length_le hleft hright (by simp)).eq_of_length (by simp)
  simpa using heq

/-- Of two paths only one takes the earlier edge where they part. -/
theorem PartsBefore.asymm {first second : List Entry} (h : PartsBefore first second) :
    ¬PartsBefore second first := by
  -- Paths that part after one beginning still agree on every shorter beginning.
  have hshort {common longer path other : List Entry} {fork left right fork' left' right' : Entry}
      (hlength : common.length < longer.length) (hleft : common ++ [fork, left] <+: path)
      (hright : common ++ [fork, right] <+: other) (hleft' : longer ++ [fork', left'] <+: path)
      (hright' : longer ++ [fork', right'] <+: other) : left = right := by
    have hbegin {x : Entry} : longer ++ [fork'] <+: longer ++ [fork', x] :=
      ⟨[x], by simp⟩
    refine eq_of_append_pair
      (List.prefix_of_prefix_length_le hleft (hbegin.trans hleft') ?_)
      (List.prefix_of_prefix_length_le hright (hbegin.trans hright') ?_)
    · simpa using Nat.succ_le_of_lt hlength
    · simpa using Nat.succ_le_of_lt hlength
  intro h'
  obtain ⟨common, fork, left, right, hleft, hright, hlt⟩ := h
  obtain ⟨common', fork', right', left', hright', hleft', hlt'⟩ := h'
  rcases Nat.lt_trichotomy common.length common'.length with hlength | hlength | hlength
  · rw [hshort hlength hleft hright hleft' hright'] at hlt
    exact lt_irrefl _ hlt
  · have hfirst : common ++ [fork, left] = common' ++ [fork', left'] :=
      (List.prefix_of_prefix_length_le hleft hleft' (by simp [hlength])).eq_of_length
        (by simp [hlength])
    obtain ⟨rfl, heq⟩ := List.append_inj hfirst hlength
    simp only [List.cons.injEq, and_true] at heq
    obtain ⟨rfl, rfl⟩ := heq
    rw [eq_of_append_pair hright hright'] at hlt
    exact lt_asymm hlt hlt'
  · rw [hshort hlength hleft' hright' hleft hright] at hlt'
    exact lt_irrefl _ hlt'

/-- A path does not part from one that it continues. -/
theorem PartsBefore.not_begins {first second : List Entry} (h : PartsBefore first second) :
    ¬second <+: first := by
  intro hbegin
  obtain ⟨common, fork, left, right, hleft, hright, hlt⟩ := h
  rw [eq_of_append_pair hleft (hright.trans hbegin)] at hlt
  exact lt_irrefl _ hlt

/-- Depth-first order puts only one of two paths first. -/
theorem Precedes.asymm {first second : List Entry} (h : Precedes first second) :
    ¬Precedes second first := by
  intro h'
  rcases h with ⟨hbegin, hne⟩ | h
  · rcases h' with ⟨hbegin', _⟩ | h'
    · exact hne (hbegin.eq_of_length (hbegin.length_le.antisymm hbegin'.length_le))
    · exact h'.not_begins hbegin
  · rcases h' with ⟨hbegin', _⟩ | h'
    · exact h.not_begins hbegin'
    · exact h.asymm h'

/-- No path precedes itself. -/
theorem Precedes.ne {first second : List Entry} (h : Precedes first second) : first ≠ second := by
  intro heq
  obtain rfl := heq
  exact h.asymm h

/-- The extensions of a root are the simple paths from it. -/
theorem mem_extensions_root_iff (hdistinct : (atlas.entries.map Entry.id).Nodup) {root : Entry}
    (hroot : root ∈ atlas.entries) {walk : List Entry} :
    walk ∈ atlas.extensions [root] root ↔ atlas.SimplePath root walk := by
  have hstarts : [root] <+: walk ↔ walk.head? = some root := by
    cases walk with
    | nil => simp
    | cons first rest => simp [List.cons_prefix_cons, eq_comm]
  rw [mem_extensions_iff hdistinct (.single hroot), hstarts]
  exact ⟨fun ⟨starts, linked, distinct⟩ => ⟨starts, linked, distinct⟩,
    fun ⟨starts, linked, distinct⟩ => ⟨starts, linked, distinct⟩⟩

end DocAtlas.Atlas
