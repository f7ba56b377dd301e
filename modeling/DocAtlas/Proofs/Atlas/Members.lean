import DocAtlas.Atlas.Basic
import DocAtlas.Proofs.FirstOccurrences
import Mathlib.Data.List.Nodup
import Mathlib.Logic.Relation

/-!
# The graph of members

An entry is linked to another one if it has an edge to its identity. With distinct identities the
two ways of looking an entry up agree, and the members of an entry are exactly the entries it is
linked to, each once, in the order of the first edges to them.
-/

namespace DocAtlas

namespace Atlas

/-- An entry is linked to an entry of the atlas if it has an edge to it. -/
def Links (atlas : Atlas) (entry member : Entry) : Prop :=
  member ∈ atlas.entries ∧ member.id ∈ entry.children.map Edge.id

/-- An entry reaches another one through links, or is that entry. -/
def Reaches (atlas : Atlas) : Entry → Entry → Prop :=
  Relation.ReflTransGen atlas.Links

variable {atlas : Atlas}

/-- Entries with one identity are one entry. -/
theorem eq_of_id_eq (hdistinct : (atlas.entries.map Entry.id).Nodup) {first second : Entry}
    (hfirst : first ∈ atlas.entries) (hsecond : second ∈ atlas.entries)
    (hid : first.id = second.id) : first = second :=
  List.inj_on_of_nodup_map hdistinct hfirst hsecond hid

/-- With distinct identities an entry is found exactly by its own identity. -/
theorem get?_eq_some_iff (hdistinct : (atlas.entries.map Entry.id).Nodup) {id : String}
    {entry : Entry} : atlas.get? id = some entry ↔ entry ∈ atlas.entries ∧ entry.id = id := by
  constructor
  · intro h
    exact ⟨mem_of_get? h, by simpa using List.find?_some h⟩
  · intro h
    obtain ⟨hentry, rfl⟩ := h
    cases hget : atlas.get? entry.id with
    | none =>
      have h := List.find?_eq_none.mp hget entry hentry
      simp at h
    | some found =>
      have hid : found.id = entry.id := by simpa using List.find?_some hget
      rw [eq_of_id_eq hdistinct (mem_of_get? hget) hentry hid]

/-- An entry is found under the identity that it was looked up with. -/
theorem id_of_latest? {id : String} {entry : Entry} (h : atlas.latest? id = some entry) :
    entry.id = id := by
  rw [latest?, List.findRev?_eq_find?_reverse] at h
  simpa using List.find?_some h

/-- Some entry is found under the identity of every entry, be it that entry or a later one. -/
theorem exists_latest? {entry : Entry} (h : entry ∈ atlas.entries) :
    ∃ found, atlas.latest? entry.id = some found := by
  rw [← Option.isSome_iff_exists, latest?, List.findRev?_eq_find?_reverse, List.find?_isSome]
  exact ⟨entry, List.mem_reverse.mpr h, by simp⟩

/-- With distinct identities the first and the last entry of an identity are the same. -/
theorem latest?_eq_get? (hdistinct : (atlas.entries.map Entry.id).Nodup) :
    atlas.latest? = atlas.get? := by
  funext id
  cases hlatest : atlas.latest? id with
  | none =>
    have hnone : ∀ entry ∈ atlas.entries, ¬entry.id = id := by
      simpa [latest?] using hlatest
    symm
    simpa [get?] using hnone
  | some found =>
    have hfound := And.intro (mem_of_latest? hlatest) (id_of_latest? hlatest)
    exact ((get?_eq_some_iff hdistinct).mpr hfound).symm

/-- With distinct identities an entry is the last one of its identity. -/
theorem latest?_eq_some_of_mem (hdistinct : (atlas.entries.map Entry.id).Nodup) {entry : Entry}
    (hentry : entry ∈ atlas.entries) : atlas.latest? entry.id = some entry := by
  rw [latest?_eq_get? hdistinct, get?_eq_some_iff hdistinct]
  exact ⟨hentry, rfl⟩

/-- A heading is an entry of the atlas. -/
theorem mem_of_mem_headings {heading : Entry} (h : heading ∈ atlas.headings) :
    heading ∈ atlas.entries :=
  List.mem_of_mem_filter h

/-- The headings are the entries with the flag of a root and a namespace. -/
theorem headings_eq (atlas : Atlas) :
    atlas.headings = atlas.entries.filter fun entry => entry.isRoot ∧ entry.namespaces ≠ [] := by
  refine List.filter_congr fun entry _ => ?_
  rw [Entry.isHeading]
  cases entry.namespaces <;> simp

end Atlas

/-- Where an identity stands for one entry, keeping entries once by identity loses only what was
seen before. -/
theorem mem_distinctById_iff {seen : List String} {entries : List Entry}
    (hsame : ∀ first ∈ entries, ∀ second ∈ entries, first.id = second.id → first = second)
    {entry : Entry} :
    entry ∈ distinctById seen entries ↔ entry.id ∉ seen ∧ entry ∈ entries := by
  induction entries generalizing seen with
  | nil => simp [distinctById]
  | cons first rest ih =>
    have hrest : ∀ a ∈ rest, ∀ b ∈ rest, a.id = b.id → a = b := fun a ha b hb =>
      hsame a (List.mem_cons_of_mem _ ha) b (List.mem_cons_of_mem _ hb)
    rw [distinctById]
    split
    · next hseen =>
      rw [ih hrest, List.mem_cons]
      constructor
      · intro h
        obtain ⟨hnew, hentry⟩ := h
        exact ⟨hnew, Or.inr hentry⟩
      · intro h
        rcases h with ⟨hnew, rfl | hentry⟩
        · exact absurd hseen hnew
        · exact ⟨hnew, hentry⟩
    · next hseen =>
      rw [List.mem_cons, ih hrest, List.mem_cons, List.mem_cons, not_or]
      constructor
      · intro h
        rcases h with rfl | ⟨⟨_, hnew⟩, hentry⟩
        · exact ⟨hseen, Or.inl rfl⟩
        · exact ⟨hnew, Or.inr hentry⟩
      · intro h
        rcases h with ⟨hnew, rfl | hentry⟩
        · exact Or.inl rfl
        · by_cases hid : entry.id = first.id
          · exact Or.inl (hsame entry (List.mem_cons_of_mem _ hentry) first List.mem_cons_self hid)
          · exact Or.inr ⟨⟨hid, hnew⟩, hentry⟩

/-- Entries kept once by identity do not repeat what was seen. -/
theorem id_notMem_of_mem_distinctById {seen : List String} {entries : List Entry} {entry : Entry}
    (h : entry ∈ distinctById seen entries) : entry.id ∉ seen := by
  induction entries generalizing seen with
  | nil => simp [distinctById] at h
  | cons first rest ih =>
    rw [distinctById] at h
    split at h
    · exact ih h
    · next hseen =>
      rcases List.mem_cons.mp h with rfl | h
      · exact hseen
      · exact fun hmem => ih h (List.mem_cons_of_mem _ hmem)

/-- Looked-up entries that are kept once stand in the order of the first edges to them. -/
theorem pairwise_distinctById_lookup {lookup : String → Option Entry}
    (hlookup : ∀ id entry, lookup id = some entry → entry.id = id) (seen : List String)
    (edges : List Edge) :
    (distinctById seen (edges.filterMap fun edge => lookup edge.id)).Pairwise
      fun first second =>
        (edges.map Edge.id).idxOf first.id < (edges.map Edge.id).idxOf second.id := by
  induction edges generalizing seen with
  | nil => exact List.Pairwise.nil
  | cons edge rest ih =>
    have hshift {kept : List Entry} (hkept : ∀ entry ∈ kept, edge.id ≠ entry.id)
        (hpairwise : kept.Pairwise fun first second =>
          (rest.map Edge.id).idxOf first.id < (rest.map Edge.id).idxOf second.id) :
        kept.Pairwise fun first second =>
          ((edge :: rest).map Edge.id).idxOf first.id <
            ((edge :: rest).map Edge.id).idxOf second.id := by
      refine hpairwise.imp_of_mem fun hfirst hsecond hlt => ?_
      rw [List.map_cons, List.idxOf_cons_ne _ (hkept _ hfirst),
        List.idxOf_cons_ne _ (hkept _ hsecond)]
      exact Nat.succ_lt_succ hlt
    cases hfound : lookup edge.id with
    | none =>
      simp only [List.filterMap_cons, hfound]
      refine hshift ?_ (ih seen)
      intro entry hentry heq
      obtain ⟨other, _, hother⟩ := List.mem_filterMap.mp (mem_of_mem_distinctById hentry)
      rw [heq, hlookup _ _ hother, hother] at hfound
      simp at hfound
    | some found =>
      simp only [List.filterMap_cons, hfound, distinctById]
      have hid := hlookup _ _ hfound
      split
      · next hseen =>
        refine hshift ?_ (ih seen)
        intro entry hentry heq
        rw [hid, heq] at hseen
        exact id_notMem_of_mem_distinctById hentry hseen
      · have hnew : ∀ entry ∈ distinctById (found.id :: seen)
            (rest.filterMap fun edge => lookup edge.id), edge.id ≠ entry.id := by
          intro entry hentry heq
          refine id_notMem_of_mem_distinctById hentry ?_
          rw [hid, heq]
          exact List.mem_cons_self
        rw [List.pairwise_cons]
        refine ⟨fun entry hentry => ?_, hshift hnew (ih _)⟩
        rw [hid, List.map_cons, List.idxOf_cons_self, List.idxOf_cons_ne _ (hnew entry hentry)]
        exact Nat.succ_pos _

/-- Entries that are looked up and kept once are those of the identities that are kept once. -/
theorem distinctById_filterMap {lookup : String → Option Entry}
    (hlookup : ∀ id entry, lookup id = some entry → entry.id = id) (seen ids : List String) :
    distinctById seen (ids.filterMap lookup) =
      (ids.eraseDups.filter (· ∉ seen)).filterMap lookup := by
  induction ids generalizing seen with
  | nil => rfl
  | cons id rest ih =>
    rw [List.eraseDups_cons, eraseDups_filter, List.filterMap_cons]
    cases hfound : lookup id with
    | none =>
      -- An identity that nothing is found for can be left out.
      rw [ih, List.filterMap_filter, List.filterMap_filter, List.filterMap_cons, hfound]
      simp only [ite_self]
      rw [List.filterMap_filter]
      refine List.filterMap_congr fun other _ => ?_
      by_cases hother : other = id
      · simp [hother, hfound]
      · simp [hother]
    | some found =>
      obtain rfl := hlookup _ _ hfound
      rw [distinctById]
      split
      · next hseen =>
        rw [ih, List.filter_cons_of_neg (by simpa using hseen), List.filter_filter]
        congr 1
        refine List.filter_congr fun other _ => ?_
        by_cases hother : other = found.id
        · simp [hother, hseen]
        · simp [hother]
      · next hseen =>
        rw [ih, List.filter_cons_of_pos (by simpa using hseen), List.filterMap_cons, hfound,
          List.filter_filter]
        refine congrArg (List.cons found) (congrArg _ (List.filter_congr fun other _ => ?_))
        by_cases hother : other = found.id <;> simp [hother]

namespace Atlas

variable {atlas : Atlas}

/-- The entries that the edges of an entry lead to, in the order of the edges. An identity stands for
the first entry that has it, and counts at the first edge to it only. -/
def linked (atlas : Atlas) (entry : Entry) : List Entry :=
  (entry.children.map Edge.id).eraseDups.filterMap fun id => atlas.entries.find? (·.id = id)

/-- The members of an entry are the entries that its edges lead to. -/
theorem members_eq_linked (atlas : Atlas) (entry : Entry) :
    entry.members atlas.get? = atlas.linked entry := by
  have hlookup : ∀ id found, atlas.get? id = some found → found.id = id := by
    intro id found hfound
    simpa using List.find?_some hfound
  have hids : (entry.children.filterMap fun edge => atlas.get? edge.id) =
      (entry.children.map Edge.id).filterMap atlas.get? := by
    rw [List.filterMap_map]
    rfl
  rw [Entry.members, hids, distinctById_filterMap hlookup, List.filter_eq_self.mpr (by simp)]
  rfl

/-- The members of an entry are the entries it is linked to. -/
theorem mem_members_iff (hdistinct : (atlas.entries.map Entry.id).Nodup) {entry member : Entry} :
    member ∈ entry.members atlas.get? ↔ atlas.Links entry member := by
  have hsame : ∀ first ∈ entry.children.filterMap fun edge => atlas.get? edge.id,
      ∀ second ∈ entry.children.filterMap fun edge => atlas.get? edge.id,
        first.id = second.id → first = second := by
    intro first hfirst second hsecond hid
    obtain ⟨_, _, hfirst⟩ := List.mem_filterMap.mp hfirst
    obtain ⟨_, _, hsecond⟩ := List.mem_filterMap.mp hsecond
    exact eq_of_id_eq hdistinct (mem_of_get? hfirst) (mem_of_get? hsecond) hid
  rw [Entry.members, mem_distinctById_iff hsame, List.mem_filterMap, Links, List.mem_map]
  constructor
  · intro h
    obtain ⟨_, edge, hedge, hfound⟩ := h
    obtain ⟨hmember, hid⟩ := (get?_eq_some_iff hdistinct).mp hfound
    exact ⟨hmember, edge, hedge, hid.symm⟩
  · intro h
    obtain ⟨hmember, edge, hedge, hid⟩ := h
    exact ⟨List.not_mem_nil, edge, hedge, (get?_eq_some_iff hdistinct).mpr ⟨hmember, hid.symm⟩⟩

/-- The members of an entry stand in the order of the first edges to them. -/
theorem pairwise_members (hdistinct : (atlas.entries.map Entry.id).Nodup) (entry : Entry) :
    (entry.members atlas.get?).Pairwise fun first second =>
      (entry.children.map Edge.id).idxOf first.id <
        (entry.children.map Edge.id).idxOf second.id :=
  pairwise_distinctById_lookup (fun _ _ h => ((get?_eq_some_iff hdistinct).mp h).2) []
    entry.children

end Atlas

/-- An entry that declares namespaces and has edges to identities. -/
def Entry.declaring (id : String) (namespaces targets : List String) : Entry :=
  { id
    isRoot := !namespaces.isEmpty
    origin := { fileName := id, filePath := id, created := "", modified := "" }
    namespaces
    children := targets.map fun id =>
      { id, kind := none, association := "namespace", description := none } }

/-- Two headings that share members in a circle, with repeated edges, an edge to an unknown identity
and an entry that no heading reaches. -/
def Atlas.ring : Atlas :=
  { entries :=
      [.declaring "a" ["ui"] ["b", "c", "b"], .declaring "b" [] ["c", "lost"],
        .declaring "c" [] ["b", "a"], .declaring "d" ["core"] ["c", "e"], .declaring "e" [] [],
        .declaring "f" [] ["b", "f"]]
    namespaces := []
    modules := []
    files := [] }

end DocAtlas
