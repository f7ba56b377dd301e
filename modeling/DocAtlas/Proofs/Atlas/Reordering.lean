import DocAtlas.Proofs.Atlas.Mirror

/-!
# The order of the comments

Where several comments declare one name the first one wins, so the order of the comments matters.
If no name and no file is declared by two comments there is nothing to win: the registries give the
same answers however the comments are ordered, and the ties of an entry follow from these answers
alone. What the order still decides is the order of the entries, of the declarations and of the
edges to members.
-/

namespace DocAtlas

/-- Every namespace, every module and every file is declared by at most one of the comments. -/
structure Comment.DeclaredOnce (comments : List Comment) : Prop where
  namespaces : ∀ first ∈ comments, ∀ second ∈ comments,
    ∀ name ∈ (Entry.ofComment first).namespaces, name ∈ (Entry.ofComment second).namespaces →
      first.id = second.id
  modules : ∀ first ∈ comments, ∀ second ∈ comments,
    ∀ name ∈ (Entry.ofComment first).modules, name ∈ (Entry.ofComment second).modules →
      first.id = second.id
  files : ∀ first ∈ comments, ∀ second ∈ comments, first.filePath = second.filePath →
    (first.describes? first.filePath).isSome → (second.describes? second.filePath).isSome →
      first.id = second.id

/-- Two atlases that differ in the order of the entries, of the declarations and of the edges to
members, and in nothing else. -/
structure Atlas.SameUpToOrder (first second : Atlas) : Prop where
  ids : (first.entries.map Entry.id).Perm (second.entries.map Entry.id)
  parents : ∀ entry ∈ first.entries, ∀ other ∈ second.entries, entry.id = other.id →
    entry.parents = other.parents
  children : ∀ entry ∈ first.entries, ∀ other ∈ second.entries, entry.id = other.id →
    entry.children.Perm other.children
  others : ∀ entry ∈ first.entries, ∀ other ∈ second.entries, entry.id = other.id →
    { entry with parents := [], children := [] } = { other with parents := [], children := [] }
  namespaces : first.namespaces.Perm second.namespaces
  modules : first.modules.Perm second.modules
  files : first.files.Perm second.files

/-- What only one element can answer does not depend on the order of the elements. -/
theorem findSome?_perm {α β : Type} {f : α → Option β} {first second : List α}
    (hperm : first.Perm second)
    (hunique : ∀ a ∈ first, ∀ b ∈ first, (f a).isSome → (f b).isSome → a = b) :
    first.findSome? f = second.findSome? f := by
  cases hsecond : second.findSome? f with
  | none =>
    rw [List.findSome?_eq_none_iff] at hsecond ⊢
    intro a ha
    exact hsecond a (hperm.mem_iff.mp ha)
  | some value =>
    obtain ⟨b, hb, hvalue⟩ := List.exists_of_findSome?_eq_some hsecond
    have hmem := hperm.mem_iff.mpr hb
    cases hfirst : first.findSome? f with
    | none =>
      have hnone := List.findSome?_eq_none_iff.mp hfirst b hmem
      simp [hnone] at hvalue
    | some found =>
      obtain ⟨a, ha, hfound⟩ := List.exists_of_findSome?_eq_some hfirst
      have hab := hunique a ha b hmem (by simp [hfound]) (by simp [hvalue])
      rw [← hfound, ← hvalue, hab]

namespace Comment

variable {comments others : List Comment}

/-- At most one comment declares what a reference names. -/
theorem DeclaredOnce.id_eq_of_declares (honce : DeclaredOnce comments) {ref : MemberRef}
    {first second : Comment} (hfirst : first ∈ comments) (hsecond : second ∈ comments)
    (hfirstDeclares : first.declares ref = true) (hsecondDeclares : second.declares ref = true) :
    first.id = second.id := by
  simp only [declares, Bool.or_eq_true, Bool.and_eq_true, decide_eq_true_eq]
    at hfirstDeclares hsecondDeclares
  rcases hfirstDeclares with ⟨hkind, hname⟩ | ⟨hkind, hname⟩
  · rcases hsecondDeclares with ⟨_, hother⟩ | ⟨hother, _⟩
    · exact honce.namespaces first hfirst second hsecond _ hname hother
    · rw [hkind] at hother
      exact absurd hother (by decide)
  · rcases hsecondDeclares with ⟨hother, _⟩ | ⟨_, hother⟩
    · rw [hkind] at hother
      exact absurd hother (by decide)
    · exact honce.modules first hfirst second hsecond _ hname hother

/-- A comment that describes a file stands in it. -/
theorem filePath_of_describes? {comment : Comment} {path : String}
    (h : (comment.describes? path).isSome) : comment.filePath = path := by
  by_contra hne
  rw [describes?, if_neg hne] at h
  simp at h

/-- At most one comment describes a file. -/
theorem DeclaredOnce.id_eq_of_describes? (honce : DeclaredOnce comments) {path : String}
    {first second : Comment} (hfirst : first ∈ comments) (hsecond : second ∈ comments)
    (hfirstDescribes : (first.describes? path).isSome)
    (hsecondDescribes : (second.describes? path).isSome) : first.id = second.id := by
  have hfirstPath := filePath_of_describes? hfirstDescribes
  have hsecondPath := filePath_of_describes? hsecondDescribes
  subst hfirstPath
  refine honce.files first hfirst second hsecond hsecondPath.symm hfirstDescribes ?_
  rwa [hsecondPath]

section

variable (hperm : comments.Perm others) (hdistinct : (comments.map Comment.id).Nodup)
  (honce : DeclaredOnce comments)

include hperm hdistinct honce

/-- The declarer of a name does not depend on the order of the comments. -/
theorem find?_declares_perm (ref : MemberRef) :
    comments.find? (·.declares ref) = others.find? (·.declares ref) := by
  rw [List.find?_eq_findSome?_guard, List.find?_eq_findSome?_guard]
  refine findSome?_perm hperm ?_
  intro first hfirst second hsecond hfirstDeclares hsecondDeclares
  refine List.inj_on_of_nodup_map hdistinct hfirst hsecond ?_
  exact honce.id_eq_of_declares hfirst hsecond (by simpa using hfirstDeclares)
    (by simpa using hsecondDeclares)

/-- The describer of a file does not depend on the order of the comments. -/
theorem describer?_perm (path : String) : describer? comments path = describer? others path := by
  refine findSome?_perm hperm ?_
  intro first hfirst second hsecond hfirstDescribes hsecondDescribes
  refine List.inj_on_of_nodup_map hdistinct hfirst hsecond ?_
  exact honce.id_eq_of_describes? hfirst hsecond (by simpa using hfirstDescribes)
    (by simpa using hsecondDescribes)

end

end Comment

namespace Registries

/-- Registries that answer every question alike, whatever the order of their declarations. -/
structure Agree (first second : Registries) : Prop where
  resolve? : first.resolve? = second.resolve?
  files : first.files.get? = second.files.get?

namespace Agree

variable {first second : Registries} (h : first.Agree second)

include h

/-- An entry has the same ties of references. -/
theorem memberTies : first.memberTies = second.memberTies := by
  funext entry
  rw [Registries.memberTies, Registries.memberTies]
  congr 1
  funext ref
  rw [memberTie?, memberTie?, h.resolve?]

/-- An entry has the same tie of its file. -/
theorem fileTies : first.fileTies = second.fileTies := by
  funext entry
  rw [Registries.fileTies, Registries.fileTies, h.files]

/-- An entry has the same edges to what it belongs to. -/
theorem parentsOf : first.parentsOf = second.parentsOf := by
  funext entry
  rw [Registries.parentsOf, Registries.parentsOf, h.memberTies, h.fileTies]

/-- The ties of reordered entries are the same, in some order. -/
theorem ties_perm {entries others : List Entry} (hperm : entries.Perm others) :
    (first.ties entries).Perm (second.ties others) := by
  rw [ties, ties, h.memberTies, h.fileTies]
  exact (hperm.flatMap_right _).append (hperm.flatMap_right _)

/-- The declared namespaces are the same, in some order. -/
theorem namespaces_perm : first.namespaces.values.Perm second.namespaces.values := by
  refine Registry.values_perm fun name => ?_
  exact congrFun h.resolve? { kind := "namespace", description := name }

/-- The declared modules are the same, in some order. -/
theorem modules_perm : first.modules.values.Perm second.modules.values := by
  refine Registry.values_perm fun name => ?_
  exact congrFun h.resolve? { kind := "module", description := name }

/-- The described files are the same, in some order. -/
theorem files_perm : first.files.values.Perm second.files.values :=
  Registry.values_perm (congrFun h.files)

end Agree

/-- The registries of reordered comments agree if nothing is declared twice. -/
theorem agree_of_perm {comments others : List Comment} (hperm : comments.Perm others)
    (hdistinct : (comments.map Comment.id).Nodup) (honce : Comment.DeclaredOnce comments) :
    (ofEntries (comments.map Entry.ofComment)).Agree
      (ofEntries (others.map Entry.ofComment)) := by
  constructor
  · funext ref
    rw [resolve?_ofComments, resolve?_ofComments,
      Comment.find?_declares_perm hperm hdistinct honce]
  · funext path
    rw [get?_files_ofComments, get?_files_ofComments,
      Comment.describer?_perm hperm hdistinct honce]

end Registries

/-- The edges to members of reordered ties are the same, in some order. -/
theorem childrenOf_perm {ties others : List Tie} (h : ties.Perm others) (id : String) :
    (childrenOf ties id).Perm (childrenOf others id) :=
  eraseDups_perm ((h.filter _).map _)

namespace Atlas

/-- With distinct identities linking gives every comment its entry and the entry its edges. -/
theorem entries_link_of_nodup {comments : List Comment}
    (hdistinct : (comments.map Comment.id).Nodup) :
    (link comments).entries = comments.map fun comment =>
      { Entry.ofComment comment with
        parents := (Registries.ofEntries (comments.map Entry.ofComment)).parentsOf
          (Entry.ofComment comment)
        children := childrenOf
          ((Registries.ofEntries (comments.map Entry.ofComment)).ties
            (comments.map Entry.ofComment)) comment.id } := by
  have hids : ((comments.map Entry.ofComment).map Entry.id).Nodup := by
    rw [List.map_map]
    exact hdistinct
  rw [link, ofEntries]
  simp only [connect_of_nodup _ _ hids, List.map_map]
  rfl

/-- If comments have distinct identities and no name and no file is declared by two of them, the
order in which they are linked does not matter: every comment has the same edges to what it belongs
to and says the same otherwise, and its edges to members and all declarations are the same up to
their order. -/
theorem link_perm {comments others : List Comment} (hperm : comments.Perm others)
    (hdistinct : (comments.map Comment.id).Nodup) (honce : Comment.DeclaredOnce comments) :
    SameUpToOrder (link comments) (link others) := by
  have hothers : (others.map Comment.id).Nodup := (hperm.map _).nodup_iff.mp hdistinct
  have hagree := Registries.agree_of_perm hperm hdistinct honce
  have hties := hagree.ties_perm (hperm.map Entry.ofComment)
  -- Entries of one identity come from one comment, whichever of the two lists it is looked up in.
  have hsame : ∀ entry ∈ (link comments).entries, ∀ other ∈ (link others).entries,
      entry.id = other.id → entry.parents = other.parents ∧
        entry.children.Perm other.children ∧
        { entry with parents := [], children := [] } =
          { other with parents := [], children := [] } := by
    intro entry hentry other hother hid
    rw [entries_link_of_nodup hdistinct] at hentry
    rw [entries_link_of_nodup hothers] at hother
    obtain ⟨comment, hcomment, rfl⟩ := List.mem_map.mp hentry
    obtain ⟨found, hfound, rfl⟩ := List.mem_map.mp hother
    obtain rfl := List.inj_on_of_nodup_map hdistinct hcomment (hperm.mem_iff.mpr hfound) hid
    refine ⟨?_, ?_, rfl⟩
    · exact congrFun hagree.parentsOf (Entry.ofComment comment)
    · exact childrenOf_perm hties comment.id
  constructor
  · rw [map_id_link, map_id_link]
    exact hperm.map _
  · intro entry hentry other hother hid
    exact (hsame entry hentry other hother hid).1
  · intro entry hentry other hother hid
    exact (hsame entry hentry other hother hid).2.1
  · intro entry hentry other hother hid
    exact (hsame entry hentry other hother hid).2.2
  · exact hagree.namespaces_perm
  · exact hagree.modules_perm
  · exact hagree.files_perm

/-- The comments of a circle may be linked in the opposite order. -/
theorem link_perm_circle :
    Comment.circle.Perm Comment.circle.reverse ∧ (Comment.circle.map Comment.id).Nodup ∧
      Comment.DeclaredOnce Comment.circle ∧
      SameUpToOrder (link Comment.circle) (link Comment.circle.reverse) ∧
      (link Comment.circle).entries.map (fun entry => entry.children.map Edge.id) =
        [["b", "c"], ["a", "c", "c"], []] ∧
      (link Comment.circle.reverse).entries.map (fun entry => entry.children.map Edge.id) =
        [[], ["c", "a", "c"], ["c", "b"]] := by
  have hperm : Comment.circle.Perm Comment.circle.reverse := (List.reverse_perm _).symm
  have hdistinct : (Comment.circle.map Comment.id).Nodup := by decide
  have honce : Comment.DeclaredOnce Comment.circle := ⟨by decide, by decide, by decide⟩
  exact ⟨hperm, hdistinct, honce, link_perm hperm hdistinct honce, by decide, by decide⟩

end Atlas

end DocAtlas
