import DocAtlas.Proofs.Atlas.Parents

/-!
# Sessions

A linker may be run again and again, on inputs of every sort. Each run begins anew or not at all: an
input that is a list of comments is linked as if the linker had never been used, and leaves what
these comments declare in its registries; any other input is refused and changes nothing. So what a
run gives does not depend on the runs before it.
-/

namespace DocAtlas

namespace Comment

/-- The names of the namespaces that a comment declares. -/
def namespaceNames (comment : Comment) : List String :=
  (comment.tags.values "namespace").map stripBraces

/-- The names of the modules that a comment declares. -/
def moduleNames (comment : Comment) : List String :=
  comment.tags.values "module"

/-- The path of the file that a comment describes: its own file or none. -/
def describedPaths (comment : Comment) : List String :=
  if (comment.describes? comment.filePath).isSome then [comment.filePath] else []

end Comment

namespace Registries

/-- Registries that hold what comments declare and nothing else: the names in order of first
declaration, each with the first comment that declares it. -/
structure DeclaredBy (registries : Registries) (comments : List Comment) : Prop where
  namespaceNames :
    registries.namespaces.names = (comments.flatMap Comment.namespaceNames).eraseDups
  namespaces : ∀ name, registries.namespaces.get? name =
    (comments.find? fun comment => name ∈ comment.namespaceNames).map fun declarer =>
      { id := declarer.id, description := name }
  moduleNames : registries.modules.names = (comments.flatMap Comment.moduleNames).eraseDups
  modules : ∀ name, registries.modules.get? name =
    (comments.find? fun comment => name ∈ comment.moduleNames).map fun declarer =>
      { id := declarer.id, description := name }
  filePaths : registries.files.names = (comments.flatMap Comment.describedPaths).eraseDups
  files : ∀ path, registries.files.get? path =
    (Comment.describer? comments path).map fun (describer, note) =>
      { id := describer.id, description := note, filePath := path }

/-- Names that are registered entry by entry are the names of the comments in order. -/
theorem names_registerAll_flatMap {α : Type} {declared : Entry → List (String × α)}
    {names : Comment → List String}
    (h : ∀ comment, (declared (Entry.ofComment comment)).map Prod.fst = names comment)
    (comments : List Comment) :
    (Registry.empty.registerAll ((comments.map Entry.ofComment).flatMap declared)).names =
      (comments.flatMap names).eraseDups := by
  rw [Registry.names_empty_registerAll, List.flatMap_map, List.map_flatMap]
  simp only [h]

/-- The file that an entry describes is known from its comment. -/
theorem map_fst_declaredFiles (comment : Comment) :
    (Entry.ofComment comment).declaredFiles.map Prod.fst = comment.describedPaths := by
  have htype : (Entry.ofComment comment).type = TypeNote.ofTags? comment.tags := rfl
  have hpath : (Entry.ofComment comment).origin.filePath = comment.filePath := rfl
  rw [Entry.declaredFiles, htype, hpath, Comment.describedPaths, Comment.describes?, if_pos rfl]
  cases TypeNote.ofTags? comment.tags with
  | none => rfl
  | some type =>
    simp only [Option.filter_some]
    split <;> rfl

/-- The registries of a run hold what its comments declare. -/
theorem declaredBy_ofComments (comments : List Comment) :
    (ofEntries (comments.map Entry.ofComment)).DeclaredBy comments := by
  constructor
  case namespaceNames =>
    refine names_registerAll_flatMap (fun comment => ?_) comments
    rw [Entry.declaredNamespaces, List.map_map]
    exact List.map_id _
  case namespaces =>
    intro name
    rw [get?_namespaces_ofEntries, List.find?_map, Option.map_map]
    rfl
  case moduleNames =>
    refine names_registerAll_flatMap (fun comment => ?_) comments
    rw [Entry.declaredModules, List.map_map]
    exact List.map_id _
  case modules =>
    intro name
    rw [get?_modules_ofEntries, List.find?_map, Option.map_map]
    rfl
  case filePaths => exact names_registerAll_flatMap map_fst_declaredFiles comments
  case files => exact get?_files_ofComments comments

end Registries

namespace LinkInput

/-- The message with which an input is refused: it is no list, or a list in which something stands
behind comments only that is no comment. -/
inductive RefusedWith : LinkInput → String → Prop where
  | notList (kindName : String) :
      RefusedWith (.other kindName) ("Expected a list of raw comments, got " ++ kindName)
  | notComment (before : List Comment) (kindName : String) (after : List Candidate) :
      RefusedWith (.list (before.map .comment ++ .other kindName :: after))
        ("Expected RawComment, got " ++ kindName)

/-- The comments of a list of comments are found. -/
theorem comments_map_comment (comments : List Comment) :
    Candidate.comments (comments.map .comment) = .ok comments := by
  induction comments with
  | nil => rfl
  | cons first rest ih =>
    rw [List.map_cons, Candidate.comments, ih]
    rfl

/-- What is no comment is found behind comments. -/
theorem comments_append_other (before : List Comment) (kindName : String)
    (after : List Candidate) :
    Candidate.comments (before.map .comment ++ .other kindName :: after) =
      .error (.notComment kindName) := by
  induction before with
  | nil => rfl
  | cons first rest ih =>
    rw [List.map_cons, List.cons_append, Candidate.comments, ih]
    rfl

/-- A list holds comments only, or comments up to something that is none. -/
theorem eq_map_comment_or (items : List Candidate) :
    (∃ comments : List Comment, items = comments.map .comment) ∨
      ∃ (before : List Comment) (kindName : String) (after : List Candidate),
        items = before.map .comment ++ .other kindName :: after := by
  induction items with
  | nil => exact Or.inl ⟨[], rfl⟩
  | cons item rest ih =>
    cases item with
    | other kindName => exact Or.inr ⟨[], kindName, rest, rfl⟩
    | comment first =>
      rcases ih with ⟨comments, rfl⟩ | ⟨before, kindName, after, rfl⟩
      · exact Or.inl ⟨first :: comments, rfl⟩
      · exact Or.inr ⟨first :: before, kindName, after, rfl⟩

/-- The comments of an input are found exactly if the input is a list of these comments. -/
theorem comments_eq_ok_iff {input : LinkInput} {comments : List Comment} :
    input.comments = .ok comments ↔ input = .list (comments.map .comment) := by
  constructor
  · intro h
    cases input with
    | other kindName => simp [LinkInput.comments] at h
    | list items =>
      rw [LinkInput.comments] at h
      rcases eq_map_comment_or items with ⟨found, rfl⟩ | ⟨before, kindName, after, rfl⟩
      · rw [comments_map_comment] at h
        rw [Except.ok.inj h]
      · simp [comments_append_other] at h
  · intro h
    rw [h]
    exact comments_map_comment comments

/-- An input is refused with the message of the cause for which its comments are not found. -/
theorem comments_eq_error_iff {input : LinkInput} {message : String} :
    (∃ cause, input.comments = .error cause ∧ cause.message = message) ↔
      input.RefusedWith message := by
  constructor
  · intro h
    obtain ⟨cause, hcause, rfl⟩ := h
    cases input with
    | other kindName =>
      obtain rfl := Except.error.inj hcause
      exact .notList kindName
    | list items =>
      rw [LinkInput.comments] at hcause
      rcases eq_map_comment_or items with ⟨found, rfl⟩ | ⟨before, kindName, after, rfl⟩
      · simp [comments_map_comment] at hcause
      · rw [comments_append_other] at hcause
        obtain rfl := Except.error.inj hcause
        exact .notComment before kindName after
  · intro h
    cases h with
    | notList kindName => exact ⟨.notList kindName, rfl, rfl⟩
    | notComment before kindName after =>
      exact ⟨.notComment kindName, comments_append_other before kindName after, rfl⟩

end LinkInput

namespace Linker

/-- The outcomes of a linker that is run on inputs one after the other, each with the linker that
the run leaves. -/
def session (linker : Linker) : List LinkInput → List (Except LinkError Atlas × Linker)
  | [] => []
  | input :: rest => linker.run input :: (linker.run input).2.session rest

/-- What a run makes of an input, given the linker before and after it. A list of comments gives
their atlas and leaves what they declare, as with a linker that was never used. Anything else is
refused with its message and leaves everything as it was. -/
structure Settles (before : Linker) (input : LinkInput) (outcome : Except LinkError Atlas)
    (after : Linker) : Prop where
  ok_iff : ∀ atlas, outcome = .ok atlas ↔
    ∃ comments, input = .list (comments.map .comment) ∧ atlas = Atlas.link comments
  error_iff : ∀ message, (∃ cause, outcome = .error cause ∧ cause.message = message) ↔
    input.RefusedWith message
  fresh : ∀ atlas, outcome = .ok atlas → ({} : Linker).run input = (.ok atlas, after)
  declared : ∀ comments, input = .list (comments.map .comment) →
    after.registries.DeclaredBy comments
  kept : ∀ cause, outcome = .error cause → after = before

/-- The run of a refused input, which leaves the linker as it was, settles the input. -/
theorem settles_of_error (linker : Linker) {input : LinkInput} {cause : LinkError}
    (h : input.comments = .error cause) : Settles linker input (.error cause) linker := by
  have hlist (comments : List Comment) : input ≠ .list (comments.map .comment) := by
    intro heq
    rw [LinkInput.comments_eq_ok_iff.mpr heq] at h
    contradiction
  constructor
  case ok_iff =>
    intro atlas
    simp [hlist]
  case error_iff =>
    intro message
    rw [← LinkInput.comments_eq_error_iff, h]
    simp
  case fresh =>
    intro atlas heq
    contradiction
  case declared =>
    intro comments heq
    exact absurd heq (hlist comments)
  case kept =>
    intro _ _
    rfl

/-- A run on comments does not ask what the linker holds. -/
theorem run_of_ok (linker : Linker) {input : LinkInput} {comments : List Comment}
    (h : input.comments = .ok comments) :
    linker.run input =
      (.ok (Atlas.link comments), { registries := .ofEntries (comments.map Entry.ofComment) }) := by
  rw [run, h]
  rfl

/-- The run of a list of comments settles it. -/
theorem settles_of_ok (linker : Linker) {input : LinkInput} {comments : List Comment}
    (h : input.comments = .ok comments) :
    Settles linker input (.ok (Atlas.link comments))
      { registries := .ofEntries (comments.map Entry.ofComment) } := by
  have hunique {others : List Comment} (heq : input = .list (others.map .comment)) :
      others = comments :=
    Except.ok.inj ((LinkInput.comments_eq_ok_iff.mpr heq).symm.trans h)
  constructor
  case ok_iff =>
    intro atlas
    constructor
    · intro heq
      exact ⟨comments, LinkInput.comments_eq_ok_iff.mp h, (Except.ok.inj heq).symm⟩
    · intro hexists
      obtain ⟨others, heq, rfl⟩ := hexists
      rw [hunique heq]
  case error_iff =>
    intro message
    rw [← LinkInput.comments_eq_error_iff, h]
    simp
  case fresh =>
    intro atlas heq
    rw [run_of_ok _ h, heq]
  case declared =>
    intro others heq
    rw [hunique heq]
    exact Registries.declaredBy_ofComments comments
  case kept =>
    intro cause heq
    contradiction

/-- Every run settles its input. -/
theorem settles_run (linker : Linker) (input : LinkInput) :
    Settles linker input (linker.run input).1 (linker.run input).2 := by
  cases h : input.comments with
  | error cause =>
    have hrun : linker.run input = (.error cause, linker) := by rw [run, h]
    rw [hrun]
    exact settles_of_error linker h
  | ok comments =>
    rw [run_of_ok linker h]
    exact settles_of_ok linker h

/-- In a session every run settles its input, whatever was run before: it links a list of comments
as an unused linker does and leaves what the comments declare, and it refuses any other input and
leaves the linker as the run before left it. -/
theorem session_settles (linker : Linker) (inputs : List LinkInput) :
    (linker.session inputs).length = inputs.length ∧
      ∀ i : Fin inputs.length, ∃ before outcome after,
        (linker :: (linker.session inputs).map Prod.snd)[i.val]? = some before ∧
        (linker.session inputs)[i.val]? = some (outcome, after) ∧
        Settles before inputs[i] outcome after := by
  induction inputs generalizing linker with
  | nil => exact ⟨rfl, fun i => i.elim0⟩
  | cons input rest ih =>
    obtain ⟨hlength, hruns⟩ := ih (linker.run input).2
    refine ⟨congrArg Nat.succ hlength, fun i => ?_⟩
    obtain ⟨i, hi⟩ := i
    cases i with
    | zero => exact ⟨linker, _, _, rfl, rfl, settles_run linker input⟩
    | succ i =>
      obtain ⟨before, outcome, after, hbefore, houtcome, hsettles⟩ :=
        hruns ⟨i, Nat.lt_of_succ_lt_succ hi⟩
      exact ⟨before, outcome, after, hbefore, houtcome, hsettles⟩

end Linker

end DocAtlas
