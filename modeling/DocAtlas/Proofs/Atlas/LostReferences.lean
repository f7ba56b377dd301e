import DocAtlas.Atlas.Review
import DocAtlas.Proofs.Atlas.Mirror

/-!
# Lost references

Linking and reviewing decide on their own whether a reference leads anywhere: linking asks the
registries, the review asks the list of what is declared. The two agree, so a reference is reported
only if it is lost. The converse holds for references of the kinds that linking knows and for those
without a kind. A reference of any other kind is lost and not reported.
-/

namespace DocAtlas

/-- The kinds of references that a review looks at: the two that can lead somewhere, and none. -/
def MemberRef.reviewedKinds : List String := ["", "namespace", "module"]

/-- What a review finds wrong with a lost reference, depending on its kind. -/
def MemberRef.finding (ref : MemberRef) : Finding :=
  if ref.kind = "" then .noKind ref.description
  else if ref.kind = "namespace" then .unknownNamespace ref.description
  else .unknownModule ref.description

namespace Comment

/-- Is a reference of a comment lost? It gives no edge, and the comment does not itself declare what
the reference names. -/
def loses (comments : List Comment) (comment : Comment) (ref : MemberRef) : Bool :=
  (comment.referenceEdge? comments ref).isNone &&
    ((Registries.ofEntries (comments.map Entry.ofComment)).resolve? ref).map Declaration.id ≠
      some comment.id

/-- The references of a comment that are lost and of a kind that reviews look at. -/
def reportedReferences (comments : List Comment) (comment : Comment) : List MemberRef :=
  (Entry.ofComment comment).memberOf.filter fun ref =>
    comment.loses comments ref && ref.kind ∈ MemberRef.reviewedKinds

/-- What a review finds wrong with the summary of a comment. -/
def summaryFindings (comment : Comment) : List Finding :=
  let entry := Entry.ofComment comment
  if entry.isRoot && (entry.summary.bind Text.nonempty?).isNone then [.noSummary] else []

/-- The text of a finding, beginning with the place of the comment. -/
def report (comment : Comment) (finding : Finding) : String :=
  comment.filePath ++ " (" ++ (Entry.ofComment comment).title ++ "): " ++ finding.message

/-- A reference is lost exactly if no comment declares what it names. -/
theorem loses_eq (comments : List Comment) (comment : Comment) (ref : MemberRef) :
    comment.loses comments ref = (comments.find? (·.declares ref)).isNone := by
  rw [loses, Registries.resolve?_ofComments, referenceEdge?]
  cases hfound : comments.find? (·.declares ref) with
  | none => rfl
  | some declarer =>
    by_cases hid : declarer.id = comment.id <;> simp [Option.filter_some, hid]

/-- Only namespaces and modules are ever declared. -/
theorem find?_declares_eq_none {ref : MemberRef} (hnamespace : ref.kind ≠ "namespace")
    (hmodule : ref.kind ≠ "module") (comments : List Comment) :
    comments.find? (·.declares ref) = none := by
  simp [declares, hnamespace, hmodule]

end Comment

/-- A registry that resolves references of one kind lists the names that some comment declares. -/
theorem mem_map_description_values_iff {registry : Registry Declaration} {comments : List Comment}
    {kind : String} (hresolve : ∀ name, registry.get? name =
      (Registries.ofEntries (comments.map Entry.ofComment)).resolve? { kind, description := name })
    (name : String) :
    name ∈ registry.values.map Declaration.description ↔
      (comments.find? (·.declares { kind, description := name })).isSome := by
  have hkey : ∀ name declaration, registry.get? name = some declaration →
      declaration.description = name := by
    intro name declaration hdeclaration
    rw [hresolve, Registries.resolve?_ofComments] at hdeclaration
    obtain ⟨declarer, _, rfl⟩ := Option.map_eq_some_iff.mp hdeclaration
    rfl
  rw [Registry.mem_map_values_iff hkey, hresolve, Registries.resolve?_ofComments,
    Option.isSome_map]

/-- Giving entries their edges does not change what follows from the rest of them. -/
theorem flatMap_connect {α : Type} {f : Entry → List α}
    (hf : ∀ entry parents children, f { entry with parents, children } = f entry)
    (registries : Registries) (ties : List Tie) (entries : List Entry) :
    (connect registries ties entries).flatMap f = entries.flatMap f := by
  induction entries with
  | nil => rfl
  | cons entry rest ih => rw [connect, List.flatMap_cons, List.flatMap_cons, hf, ih]

namespace Atlas

variable (comments : List Comment)

/-- A review finds something wrong with a reference exactly if the reference is lost and of a kind
that reviews look at. -/
theorem refFinding?_link (comment : Comment) (ref : MemberRef) :
    (link comments).refFinding? ref =
      if comment.loses comments ref && ref.kind ∈ MemberRef.reviewedKinds then some ref.finding
      else none := by
  obtain ⟨kind, description⟩ := ref
  rw [Comment.loses_eq, refFinding?]
  by_cases hempty : kind = ""
  · subst hempty
    rw [Comment.find?_declares_eq_none (by simp) (by simp)]
    rfl
  by_cases hnamespace : kind = "namespace"
  · subst hnamespace
    have hmem : description ∈ (link comments).namespaces.map Declaration.description ↔
        (comments.find? (·.declares { kind := "namespace", description })).isSome :=
      mem_map_description_values_iff (fun _ => rfl) description
    simp only [hmem]
    cases comments.find? (·.declares { kind := "namespace", description }) <;> rfl
  by_cases hmodule : kind = "module"
  · subst hmodule
    have hmem : description ∈ (link comments).modules.map Declaration.description ↔
        (comments.find? (·.declares { kind := "module", description })).isSome :=
      mem_map_description_values_iff (fun _ => rfl) description
    simp only [hmem]
    cases comments.find? (·.declares { kind := "module", description }) <;> rfl
  · simp [MemberRef.reviewedKinds, hempty, hnamespace, hmodule]

/-- The messages about a comment: its lost references of the reviewed kinds in order, then its
summary. -/
theorem messagesOf_ofComment (comment : Comment) :
    (link comments).messagesOf (Entry.ofComment comment) =
      ((comment.reportedReferences comments).map MemberRef.finding ++
        comment.summaryFindings).map comment.report := by
  have hreferences : (Entry.ofComment comment).memberOf.filterMap (link comments).refFinding? =
      (comment.reportedReferences comments).map MemberRef.finding := by
    rw [Comment.reportedReferences, ← List.filterMap_eq_map, List.filterMap_filter]
    congr 1
    funext ref
    exact refFinding?_link comments comment ref
  rw [messagesOf, findingsOf, hreferences]
  rfl

/-- A review reports of every comment, one after the other, each lost reference of a reviewed kind
once, in the order of the references, and then what is wrong with the summary. In strict mode the
reports are errors, otherwise warnings. -/
theorem review_link (strict : Bool) :
    (link comments).review strict =
      let reports := comments.flatMap fun comment =>
        ((comment.reportedReferences comments).map MemberRef.finding ++
          comment.summaryFindings).map comment.report
      if strict then { errors := reports, warnings := [] }
      else { errors := [], warnings := reports } := by
  have hmessages : (link comments).messages = comments.flatMap fun comment =>
      ((comment.reportedReferences comments).map MemberRef.finding ++
        comment.summaryFindings).map comment.report := by
    have hedges : (link comments).messages =
        (comments.map Entry.ofComment).flatMap (link comments).messagesOf :=
      flatMap_connect (fun _ _ _ => rfl) _ _ _
    rw [hedges, List.flatMap_map]
    simp only [messagesOf_ofComment]
  rw [review, hmessages]

end Atlas

/-- A reference to a class is lost, and neither kind of review says anything about it. -/
theorem Atlas.review_silent_on_class :
    let comment := Comment.tagged "a" "ui.ts" [("memberof", ["class:Button"])]
    let ref : MemberRef := { kind := "class", description := "Button" }
    ref ∈ (Entry.ofComment comment).memberOf ∧ comment.loses [comment] ref = true ∧
      (link [comment]).review false = { errors := [], warnings := [] } ∧
      (link [comment]).review true = { errors := [], warnings := [] } := by
  decide

end DocAtlas
