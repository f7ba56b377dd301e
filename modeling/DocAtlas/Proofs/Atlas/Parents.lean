import DocAtlas.Atlas.Link
import DocAtlas.Proofs.Registry

/-!
# Whom an entry belongs to

What an entry belongs to can be read off the comments: every reference leads to the first comment
that declares its name, wherever that comment stands, and an entry that is no root belongs to the
first comment that describes its file. The registries that linking fills on its way answer exactly
this.
-/

namespace DocAtlas

namespace Comment

/-- Does the comment declare what a reference names, as a namespace or as a module? -/
def declares (comment : Comment) (ref : MemberRef) : Bool :=
  (ref.kind = "namespace" &&
      ref.description ∈ (comment.tags.values "namespace").map stripBraces) ||
    (ref.kind = "module" && ref.description ∈ comment.tags.values "module")

/-- What the comment says about the file at a path, nothing if it does not describe that file. -/
def describes? (comment : Comment) (path : String) : Option String :=
  if comment.filePath = path then
    ((TypeNote.ofTags? comment.tags).filter fun type =>
      type.kind = "file" && type.description ≠ "").map TypeNote.description
  else none

/-- The edge of a comment to the first one that declares what a reference names, none if that is
the comment itself. -/
def referenceEdge? (comments : List Comment) (comment : Comment) (ref : MemberRef) :
    Option Edge :=
  ((comments.find? (·.declares ref)).filter (·.id ≠ comment.id)).map fun declarer =>
    { id := declarer.id
      kind := (Entry.ofComment comment).kind
      association := ref.kind
      description := some ref.description }

/-- The first comment that describes the file at a path, with what it says. -/
def describer? (comments : List Comment) (path : String) : Option (Comment × String) :=
  comments.findSome? fun comment => (comment.describes? path).map fun note => (comment, note)

/-- The edge of a comment to the first one that describes its file, none if that is the comment
itself or the comment is a root. -/
def fileEdge? (comments : List Comment) (comment : Comment) : Option Edge :=
  if (Entry.ofComment comment).isRoot then none
  else
    ((describer? comments comment.filePath).filter (·.1.id ≠ comment.id)).map
      fun (describer, note) =>
        { id := describer.id
          kind := (Entry.ofComment comment).kind
          association := "file"
          description := some note }

/-- The edges of a comment to what it belongs to: its references in order, then its file. -/
def ownerEdges (comments : List Comment) (comment : Comment) : List Edge :=
  (Entry.ofComment comment).memberOf.filterMap (referenceEdge? comments comment) ++
    (fileEdge? comments comment).toList

end Comment

/-- Among the names that entries declare, a name leads to the first entry that declares it. -/
theorem lookup_declarations (names : Entry → List String) (entries : List Entry) (name : String) :
    (entries.flatMap fun entry => (names entry).map fun declared =>
        (declared, ({ id := entry.id, description := declared } : Declaration))).lookup name =
      (entries.find? fun entry => name ∈ names entry).map fun entry =>
        { id := entry.id, description := name } := by
  induction entries with
  | nil => rfl
  | cons first rest ih =>
    have hfirst : ((names first).map fun declared =>
        (declared, ({ id := first.id, description := declared } : Declaration))).lookup name =
        if name ∈ names first then some { id := first.id, description := name } else none := by
      induction names first with
      | nil => rfl
      | cons declared others ih =>
        by_cases h : name = declared
        · simp [h]
        · have hne : (name == declared) = false := beq_false_of_ne h
          simp [List.lookup_cons, h, hne, ih]
    rw [List.flatMap_cons, List.lookup_append, hfirst, ih, List.find?_cons]
    by_cases h : name ∈ names first <;> simp [h]

namespace Registries

/-- A namespace is the one of the first entry that declares it. -/
theorem get?_namespaces_ofEntries (entries : List Entry) (name : String) :
    (ofEntries entries).namespaces.get? name =
      (entries.find? fun entry => name ∈ entry.namespaces).map fun entry =>
        { id := entry.id, description := name } := by
  rw [ofEntries, Registry.get?_empty_registerAll]
  exact lookup_declarations Entry.namespaces entries name

/-- A module is the one of the first entry that declares it. -/
theorem get?_modules_ofEntries (entries : List Entry) (name : String) :
    (ofEntries entries).modules.get? name =
      (entries.find? fun entry => name ∈ entry.modules).map fun entry =>
        { id := entry.id, description := name } := by
  rw [ofEntries, Registry.get?_empty_registerAll]
  exact lookup_declarations Entry.modules entries name

/-- What a reference means is declared by the first comment that declares its name. -/
theorem resolve?_ofComments (comments : List Comment) (ref : MemberRef) :
    (ofEntries (comments.map Entry.ofComment)).resolve? ref =
      (comments.find? (·.declares ref)).map fun declarer =>
        { id := declarer.id, description := ref.description } := by
  unfold resolve?
  by_cases hnamespace : ref.kind = "namespace"
  · have hdeclares : (fun comment : Comment => comment.declares ref) =
        fun comment => decide (ref.description ∈ (Entry.ofComment comment).namespaces) := by
      funext comment
      rw [Bool.eq_iff_iff, decide_eq_true_iff]
      simp [Comment.declares, hnamespace, Entry.ofComment]
    rw [if_pos hnamespace, get?_namespaces_ofEntries, List.find?_map, Option.map_map, hdeclares]
    rfl
  rw [if_neg hnamespace]
  by_cases hmodule : ref.kind = "module"
  · have hdeclares : (fun comment : Comment => comment.declares ref) =
        fun comment => decide (ref.description ∈ (Entry.ofComment comment).modules) := by
      funext comment
      rw [Bool.eq_iff_iff, decide_eq_true_iff]
      simp [Comment.declares, hmodule, Entry.ofComment]
    rw [if_pos hmodule, get?_modules_ofEntries, List.find?_map, Option.map_map, hdeclares]
    rfl
  · have hdeclares : comments.find? (·.declares ref) = none := by
      simp [Comment.declares, hnamespace, hmodule]
    rw [if_neg hmodule, hdeclares]
    rfl

/-- A file is the one of the first comment that describes it. -/
theorem get?_files_ofComments (comments : List Comment) (path : String) :
    (ofEntries (comments.map Entry.ofComment)).files.get? path =
      (Comment.describer? comments path).map fun (describer, note) =>
        { id := describer.id, description := note, filePath := path } := by
  rw [ofEntries, Registry.get?_empty_registerAll, Comment.describer?]
  induction comments with
  | nil => rfl
  | cons first rest ih =>
    have hfirst : (Entry.ofComment first).declaredFiles.lookup path =
        (first.describes? path).map fun note =>
          { id := first.id, description := note, filePath := path } := by
      cases htype : TypeNote.ofTags? first.tags with
      | none => simp [Entry.declaredFiles, Entry.ofComment, Comment.describes?, htype]
      | some type =>
        simp only [Entry.declaredFiles, Entry.ofComment, Comment.describes?, htype]
        split
        · next hfile =>
          by_cases hpath : first.filePath = path
          · simp only [hpath, List.lookup_cons, beq_self_eq_true, Option.filter_some, hfile]
            rfl
          · have hne : (path == first.filePath) = false := beq_false_of_ne (Ne.symm hpath)
            simp [hpath, List.lookup_cons, hne]
        · next hfile =>
          simp only [Option.filter_some, hfile]
          simp
    rw [List.map_cons, List.flatMap_cons, List.lookup_append, hfirst, ih, List.findSome?_cons]
    cases first.describes? path <;> rfl

/-- The ties of a comment's references lead to the first comments that declare their names. -/
theorem map_toOwner_memberTies (comments : List Comment) (comment : Comment) :
    ((ofEntries (comments.map Entry.ofComment)).memberTies (Entry.ofComment comment)).map
        Tie.toOwner =
      (Entry.ofComment comment).memberOf.filterMap (comment.referenceEdge? comments) := by
  rw [memberTies, List.map_filterMap]
  congr 1
  funext ref
  rw [memberTie?, resolve?_ofComments, Comment.referenceEdge?]
  cases comments.find? (·.declares ref) with
  | none => rfl
  | some declarer =>
    by_cases h : declarer.id = comment.id <;>
      simp [h, Entry.ofComment, Tie.toOwner, Option.filter_some]

/-- The tie of a comment's file leads to the first comment that describes the file. -/
theorem map_toOwner_fileTies (comments : List Comment) (comment : Comment) :
    ((ofEntries (comments.map Entry.ofComment)).fileTies (Entry.ofComment comment)).map
        Tie.toOwner =
      (comment.fileEdge? comments).toList := by
  rw [fileTies, Comment.fileEdge?]
  by_cases hroot : (Entry.ofComment comment).isRoot
  · simp [hroot]
  · have hpath : (Entry.ofComment comment).origin.filePath = comment.filePath := rfl
    rw [if_neg hroot, if_neg hroot, get?_files_ofComments, hpath]
    cases Comment.describer? comments comment.filePath with
    | none => rfl
    | some found =>
      by_cases h : found.1.id = comment.id <;>
        simp [h, Entry.ofComment, Tie.toOwner, Option.filter_some]

/-- The edges of a comment to what it belongs to are those read off the comments, each once. -/
theorem parentsOf_ofComments (comments : List Comment) (comment : Comment) :
    (ofEntries (comments.map Entry.ofComment)).parentsOf (Entry.ofComment comment) =
      (comment.ownerEdges comments).eraseDups := by
  rw [parentsOf, List.map_append, map_toOwner_memberTies, map_toOwner_fileTies]
  rfl

end Registries

/-- Giving entries their edges keeps each in its place and changes nothing else. -/
theorem getElem?_connect (registries : Registries) (ties : List Tie) (entries : List Entry)
    (i : Nat) :
    (connect registries ties entries)[i]? = entries[i]?.map fun entry =>
      { entry with
        parents := registries.parentsOf entry
        children :=
          if entry.id ∈ (entries.drop (i + 1)).map Entry.id then []
          else childrenOf ties entry.id } := by
  induction entries generalizing i with
  | nil => rfl
  | cons first rest ih =>
    cases i with
    | zero => rfl
    | succ i => exact ih i

/-- Giving entries their edges keeps their identities in order. -/
theorem map_id_connect (registries : Registries) (ties : List Tie) (entries : List Entry) :
    (connect registries ties entries).map Entry.id = entries.map Entry.id := by
  induction entries with
  | nil => rfl
  | cons first rest ih => rw [connect, List.map_cons, List.map_cons, ih]

namespace Atlas

/-- Linking keeps the identities of the comments in order. -/
theorem map_id_link (comments : List Comment) :
    (link comments).entries.map Entry.id = comments.map Comment.id := by
  rw [link, ofEntries, map_id_connect, List.map_map]
  rfl

/-- Linking gives every comment its own entry, in the order of the comments. The entry holds what
its comment says and belongs to the first declarers of what the comment refers to, then to the
first describer of its file, each edge once at its first place. -/
theorem link_parents (comments : List Comment) :
    (link comments).entries.length = comments.length ∧
      ∀ i : Fin comments.length, ∃ entry,
        (link comments).entries[i.val]? = some entry ∧
          entry.parents = (comments[i].ownerEdges comments).eraseDups ∧
          { entry with parents := [], children := [] } = Entry.ofComment comments[i] := by
  constructor
  · simpa using congrArg List.length (map_id_link comments)
  · intro i
    have hentry : (comments.map Entry.ofComment)[i.val]? = some (Entry.ofComment comments[i]) := by
      simp
    rw [link, ofEntries, getElem?_connect, hentry]
    refine ⟨_, rfl, ?_, rfl⟩
    exact Registries.parentsOf_ofComments comments comments[i]

end Atlas

end DocAtlas
