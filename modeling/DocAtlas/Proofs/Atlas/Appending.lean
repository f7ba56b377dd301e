import DocAtlas.Proofs.Atlas.Reordering

/-!
# Comments that are appended

Comments that are appended to others take nothing away from these. The first declarer of a name
stays the first one, so a reference that had an answer keeps it, and a reference that had none may
now lead to one of the new comments. With distinct identities that is all that changes: what the
registries answered before is what they answer now, restricted to the declarers that were known
before. The same restriction takes the edges that there are now back to those that there were. So
new edges may stand between old ones, but the old ones keep their order, and none is lost.
-/

namespace DocAtlas

/-- Of a first answer that passes a test and a second one that does not, the first is left. -/
theorem filter_or_eq {α : Type} {p : α → Bool} {first second : Option α}
    (hfirst : ∀ a, first = some a → p a = true) (hsecond : ∀ a, second = some a → p a = false) :
    (first.or second).filter p = first := by
  cases first with
  | some a => rw [Option.some_or, Option.filter_some, if_pos (hfirst a rfl)]
  | none =>
    cases second with
    | none => rfl
    | some a => rw [Option.none_or, Option.filter_some, if_neg (by simp [hsecond a rfl])]

/-- If no value is there twice, none of the later elements has a value of the earlier ones. -/
theorem notMem_map_of_nodup_append {α β : Type} {f : α → β} {earlier later : List α}
    (h : ((earlier ++ later).map f).Nodup) {a : α} (ha : a ∈ later) : f a ∉ earlier.map f := by
  intro hmem
  rw [List.map_append] at h
  exact List.disjoint_of_nodup_append h hmem (List.mem_map_of_mem ha)

namespace Comment

variable {comments others : List Comment} {path : String} {found : Comment × String}

/-- A comment that describes a file is one of the comments. -/
theorem mem_of_describer? (h : describer? comments path = some found) : found.1 ∈ comments := by
  obtain ⟨comment, hcomment, hnote⟩ := List.exists_of_findSome?_eq_some h
  obtain ⟨_, _, rfl⟩ := Option.map_eq_some_iff.mp hnote
  exact hcomment

/-- A file is described by the first of the comments that describes it. -/
theorem describer?_append :
    describer? (comments ++ others) path =
      (describer? comments path).or (describer? others path) :=
  List.findSome?_append

end Comment

namespace Registries

/-- Registries that give the answers of others, as far as the declarers are known. -/
structure Restricts (known : List String) (first second : Registries) : Prop where
  resolve? : ∀ ref, first.resolve? ref = (second.resolve? ref).filter (·.id ∈ known)
  files : ∀ path, first.files.get? path = (second.files.get? path).filter (·.id ∈ known)

namespace Restricts

variable {known : List String} {first second : Registries} (h : first.Restricts known second)

include h

/-- A reference ties an entry to the owners that are known. -/
theorem memberTies_eq (entry : Entry) :
    first.memberTies entry = (second.memberTies entry).filter (·.owner ∈ known) := by
  rw [memberTies, memberTies, List.filter_filterMap]
  refine List.filterMap_congr fun ref _ => ?_
  rw [memberTie?, memberTie?, h.resolve?]
  cases second.resolve? ref with
  | none => rfl
  | some target =>
    by_cases hknown : target.id ∈ known <;> by_cases hself : target.id = entry.id <;>
      simp [Option.filter_some, hknown, hself]

/-- A file ties an entry to its describer if that is known. -/
theorem fileTies_eq (entry : Entry) :
    first.fileTies entry = (second.fileTies entry).filter (·.owner ∈ known) := by
  rw [fileTies, fileTies, h.files]
  by_cases hroot : entry.isRoot
  · simp [hroot]
  · rw [if_neg hroot, if_neg hroot]
    cases second.files.get? entry.origin.filePath with
    | none => rfl
    | some file =>
      rw [Option.filter_some]
      by_cases hself : file.id = entry.id
      · by_cases hknown : file.id ∈ known
        · simp only [hknown, decide_true, if_true, if_pos hself, List.filter_nil]
        · simp only [hknown, decide_false, Bool.false_eq_true, if_false, if_pos hself,
            List.filter_nil]
      · by_cases hknown : file.id ∈ known <;> simp [hknown, hself]

/-- An entry has its edges to the owners that are known. -/
theorem parentsOf_eq (entry : Entry) :
    first.parentsOf entry = (second.parentsOf entry).filter (·.id ∈ known) := by
  rw [parentsOf, parentsOf, h.memberTies_eq, h.fileTies_eq, ← List.filter_append,
    ← eraseDups_filter, List.filter_map]
  rfl

end Restricts

/-- Ties that are listed entry by entry, restricted to the known entries. -/
theorem filter_flatMap_ties {known : List String} {ties allTies : Entry → List Tie}
    (hmember : ∀ entry, ∀ tie ∈ allTies entry, tie.member = entry.id)
    (hties : ∀ entry, ties entry = (allTies entry).filter (·.owner ∈ known))
    {entries others : List Entry} (hentries : ∀ entry ∈ entries, entry.id ∈ known)
    (hothers : ∀ entry ∈ others, entry.id ∉ known) :
    ((entries ++ others).flatMap allTies).filter
        (fun tie => tie.owner ∈ known ∧ tie.member ∈ known) = entries.flatMap ties := by
  rw [List.flatMap_append, List.filter_append, List.filter_flatMap, List.filter_flatMap]
  have hnone : (others.flatMap fun entry => (allTies entry).filter
      fun tie => tie.owner ∈ known ∧ tie.member ∈ known) = [] := by
    rw [List.flatMap_eq_nil_iff]
    intro entry hentry
    rw [List.filter_eq_nil_iff]
    intro tie htie
    simp [hmember entry tie htie, hothers entry hentry]
  rw [hnone, List.append_nil]
  refine List.flatMap_congr fun entry hentry => ?_
  rw [hties]
  refine List.filter_congr fun tie htie => ?_
  simp [hmember entry tie htie, hentries entry hentry]

/-- The ties of entries are those of more entries, as far as both ends are known. -/
theorem Restricts.ties_eq {first second : Registries} {entries others : List Entry}
    (h : first.Restricts (entries.map Entry.id) second)
    (hdistinct : ((entries ++ others).map Entry.id).Nodup) :
    first.ties entries = (second.ties (entries ++ others)).filter fun tie =>
      tie.owner ∈ entries.map Entry.id ∧ tie.member ∈ entries.map Entry.id := by
  have hentries : ∀ entry ∈ entries, entry.id ∈ entries.map Entry.id :=
    fun _ => List.mem_map_of_mem
  have hothers : ∀ entry ∈ others, entry.id ∉ entries.map Entry.id :=
    fun _ => notMem_map_of_nodup_append hdistinct
  have hmembers := filter_flatMap_ties (fun entry tie htie => (of_mem_memberTies htie).1.member)
    h.memberTies_eq hentries hothers
  have hfiles := filter_flatMap_ties (fun entry tie htie => (of_mem_fileTies htie).1.member)
    h.fileTies_eq hentries hothers
  rw [ties, ties, List.filter_append, hmembers, hfiles]

/-- An entry has its edges to the members that are known. -/
theorem Restricts.childrenOf_eq {first second : Registries} {entries others : List Entry}
    (h : first.Restricts (entries.map Entry.id) second)
    (hdistinct : ((entries ++ others).map Entry.id).Nodup) {id : String}
    (hid : id ∈ entries.map Entry.id) :
    childrenOf (first.ties entries) id =
      (childrenOf (second.ties (entries ++ others)) id).filter
        (·.id ∈ entries.map Entry.id) := by
  have hties : (first.ties entries).filter (·.owner = id) =
      ((second.ties (entries ++ others)).filter (·.owner = id)).filter
        fun tie => tie.member ∈ entries.map Entry.id := by
    rw [h.ties_eq hdistinct, List.filter_filter, List.filter_filter]
    refine List.filter_congr fun tie _ => ?_
    by_cases howner : tie.owner = id
    · rw [howner]
      simp only [hid, true_and, decide_true, Bool.true_and, Bool.and_true]
    · simp only [howner, decide_false, Bool.false_and, Bool.and_false]
  rw [childrenOf, childrenOf, hties, ← eraseDups_filter, List.filter_map]
  rfl

/-- What entries declare is listed before what more entries declare. -/
theorem values_isPrefix_append (entries others : List Entry) :
    (ofEntries entries).namespaces.values <+: (ofEntries (entries ++ others)).namespaces.values ∧
      (ofEntries entries).modules.values <+: (ofEntries (entries ++ others)).modules.values ∧
      (ofEntries entries).files.values <+: (ofEntries (entries ++ others)).files.values := by
  simp only [ofEntries, List.flatMap_append]
  exact ⟨Registry.values_isPrefix_append _ _, Registry.values_isPrefix_append _ _,
    Registry.values_isPrefix_append _ _⟩

/-- With distinct identities the registries of comments restrict those of more comments. -/
theorem restricts_append {comments others : List Comment}
    (hdistinct : ((comments ++ others).map Comment.id).Nodup) :
    (ofEntries (comments.map Entry.ofComment)).Restricts (comments.map Comment.id)
      (ofEntries ((comments ++ others).map Entry.ofComment)) := by
  have hknown {comment : Comment} (h : comment ∈ comments) :
      comment.id ∈ comments.map Comment.id := List.mem_map_of_mem h
  have hnew {comment : Comment} (h : comment ∈ others) :
      comment.id ∉ comments.map Comment.id := notMem_map_of_nodup_append hdistinct h
  constructor
  case resolve? =>
    intro ref
    rw [resolve?_ofComments, resolve?_ofComments, List.find?_append, Option.map_or]
    refine (filter_or_eq ?_ ?_).symm
    · intro target htarget
      obtain ⟨declarer, hdeclarer, rfl⟩ := Option.map_eq_some_iff.mp htarget
      exact decide_eq_true (hknown (List.mem_of_find?_eq_some hdeclarer))
    · intro target htarget
      obtain ⟨declarer, hdeclarer, rfl⟩ := Option.map_eq_some_iff.mp htarget
      exact decide_eq_false (hnew (List.mem_of_find?_eq_some hdeclarer))
  case files =>
    intro path
    rw [get?_files_ofComments, get?_files_ofComments, Comment.describer?_append, Option.map_or]
    refine (filter_or_eq ?_ ?_).symm
    · intro file hfile
      obtain ⟨found, hfound, rfl⟩ := Option.map_eq_some_iff.mp hfile
      exact decide_eq_true (hknown (Comment.mem_of_describer? hfound))
    · intro file hfile
      obtain ⟨found, hfound, rfl⟩ := Option.map_eq_some_iff.mp hfile
      exact decide_eq_false (hnew (Comment.mem_of_describer? hfound))

end Registries

/-- An entry that has more edges than before. What it says otherwise is the same, its edges of
before keep their order, and an edge to an entry that was known before is one of them. -/
structure Entry.Grows (known : List String) (before after : Entry) : Prop where
  others : { after with parents := [], children := [] } =
    { before with parents := [], children := [] }
  parents : before.parents.Sublist after.parents
  children : before.children.Sublist after.children
  of_known_parents : ∀ edge ∈ after.parents, edge.id ∈ known → edge ∈ before.parents
  of_known_children : ∀ edge ∈ after.children, edge.id ∈ known → edge ∈ before.children

/-- Edges of which those to known entries are the edges of before make an entry grow. -/
theorem Entry.Grows.of_filter {known : List String} {before after : Entry}
    (hothers : { after with parents := [], children := [] } =
      { before with parents := [], children := [] })
    (hparents : before.parents = after.parents.filter (·.id ∈ known))
    (hchildren : before.children = after.children.filter (·.id ∈ known)) :
    Grows known before after := by
  have hkept {edges : List Edge} : ∀ edge ∈ edges, edge.id ∈ known →
      edge ∈ edges.filter (·.id ∈ known) :=
    fun _ hedge hknown => List.mem_filter.mpr ⟨hedge, decide_eq_true hknown⟩
  constructor
  · exact hothers
  · rw [hparents]
    exact List.filter_sublist
  · rw [hchildren]
    exact List.filter_sublist
  · rw [hparents]
    exact hkept
  · rw [hchildren]
    exact hkept

/-- An atlas that goes on where another one ends: the entries of the first one come first, with the
edges that they had, and so do its declarations. -/
structure Atlas.Extends (first second : Atlas) : Prop where
  entries : ∃ front back, second.entries = front ++ back ∧
    List.Forall₂ (Entry.Grows (first.entries.map Entry.id)) first.entries front
  namespaces : first.namespaces <+: second.namespaces
  modules : first.modules <+: second.modules
  files : first.files <+: second.files

namespace Atlas

/-- The entry of a comment grows when comments are appended. -/
theorem grows_of_append {comments others : List Comment}
    (hdistinct : ((comments ++ others).map Comment.id).Nodup) {comment : Comment}
    (hcomment : comment ∈ comments) :
    Entry.Grows (comments.map Comment.id)
      { Entry.ofComment comment with
        parents := (Registries.ofEntries (comments.map Entry.ofComment)).parentsOf
          (Entry.ofComment comment)
        children := childrenOf
          ((Registries.ofEntries (comments.map Entry.ofComment)).ties
            (comments.map Entry.ofComment)) comment.id }
      { Entry.ofComment comment with
        parents := (Registries.ofEntries ((comments ++ others).map Entry.ofComment)).parentsOf
          (Entry.ofComment comment)
        children := childrenOf
          ((Registries.ofEntries ((comments ++ others).map Entry.ofComment)).ties
            ((comments ++ others).map Entry.ofComment)) comment.id } := by
  have hids (found : List Comment) :
      (found.map Entry.ofComment).map Entry.id = found.map Comment.id := by
    rw [List.map_map]
    rfl
  have hrestricts := Registries.restricts_append hdistinct
  refine .of_filter rfl (hrestricts.parentsOf_eq _) ?_
  rw [← hids] at hrestricts
  rw [← hids, List.map_append] at hdistinct
  have hid : comment.id ∈ (comments.map Entry.ofComment).map Entry.id := by
    rw [hids]
    exact List.mem_map_of_mem hcomment
  have hchildren := hrestricts.childrenOf_eq hdistinct hid
  rwa [← List.map_append, hids] at hchildren

/-- Comments that are appended take nothing away. If all identities are distinct, every entry of
before keeps its edges, to what it belongs to and to its members, in their order, and new edges lead
to new entries only; and the namespaces, the modules and the files of before come first. -/
theorem link_append {comments others : List Comment}
    (hdistinct : ((comments ++ others).map Comment.id).Nodup) :
    (link comments).Extends (link (comments ++ others)) := by
  have hbefore : (comments.map Comment.id).Nodup := by
    rw [List.map_append] at hdistinct
    exact hdistinct.of_append_left
  have hlists := Registries.values_isPrefix_append (comments.map Entry.ofComment)
    (others.map Entry.ofComment)
  rw [← List.map_append] at hlists
  constructor
  case entries =>
    rw [map_id_link, entries_link_of_nodup hbefore, entries_link_of_nodup hdistinct]
    refine ⟨_, _, List.map_append, ?_⟩
    rw [List.forall₂_map_left_iff, List.forall₂_map_right_iff, List.forall₂_same]
    exact fun comment hcomment => grows_of_append hdistinct hcomment
  case namespaces => exact hlists.1
  case modules => exact hlists.2.1
  case files => exact hlists.2.2

end Atlas

namespace Comment

/-- A comment that declares a namespace and describes its file, and one that belongs to both and to
a module that nobody declares. -/
def draft : List Comment :=
  [tagged "a" "ui.ts" [("namespace", ["\x7bui\x7d"]), ("file", ["start"])],
   tagged "b" "ui.ts" [("memberof", ["module:core", "namespace:ui"])]]

/-- The module that was missing, in the same file, and another comment that declares the namespace
and describes the file. -/
def supplement : List Comment :=
  [tagged "c" "ui.ts" [("module", ["core"]), ("memberof", ["namespace:ui"])],
   tagged "d" "ui.ts" [("namespace", ["\x7bui\x7d"]), ("file", ["again"])]]

end Comment

/-- The missing module is found, and new edges stand between the old ones. -/
theorem Atlas.link_append_supplement :
    ((Comment.draft ++ Comment.supplement).map Comment.id).Nodup ∧
      (link Comment.draft).Extends (link (Comment.draft ++ Comment.supplement)) ∧
      (link Comment.draft).entries.map (fun entry => entry.children.map Edge.id) =
        [["b", "b"], []] ∧
      (link (Comment.draft ++ Comment.supplement)).entries.map
          (fun entry => entry.children.map Edge.id) =
        [["b", "c", "b", "c"], [], ["b"], []] ∧
      (link (Comment.draft ++ Comment.supplement)).entries.map
          (fun entry => entry.parents.map Edge.id) =
        [[], ["c", "a", "a"], ["a", "a"], []] :=
  ⟨by decide, link_append (by decide), by decide, by decide, by decide⟩

end DocAtlas
