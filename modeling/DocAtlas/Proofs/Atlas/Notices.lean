import DocAtlas.Proofs.Atlas.LostReferences
import Mathlib.Data.List.Pairwise

/-!
# The notices of a review

A review lists texts. Each is about one reference of one entry, or about the summary of one entry.
A notice says about which: it gives the place of the entry in the atlas and the place of the
reference among those of the entry. Read as notices, the texts of a review ascend, and which
notices there are is a matter of the linker's registries: a reference is noticed if they do not
resolve it. A reference that was resolved, be it to another entry or to the entry itself, is not.
-/

namespace DocAtlas

/-- What a notice is about: a reference of the entry, by its place among them, or its summary. -/
inductive Subject where
  | reference (index : ℕ)
  | summary
deriving DecidableEq

/-- One thing that a review tells about the entry at some place. -/
structure Notice where
  place : ℕ
  subject : Subject
deriving DecidableEq

/-- The order of notices: by entries, those about references in order before that about the
summary. -/
inductive Notice.Before : Notice → Notice → Prop
  | place {first second : Notice} (h : first.place < second.place) : Before first second
  | reference {place index later : ℕ} (h : index < later) :
    Before ⟨place, .reference index⟩ ⟨place, .reference later⟩
  | summary {place index : ℕ} : Before ⟨place, .reference index⟩ ⟨place, .summary⟩

namespace Atlas

/-- The text of a notice, if there is such an entry and such a reference. -/
def noticeText? (atlas : Atlas) (notice : Notice) : Option String := do
  let entry ← atlas.entries[notice.place]?
  let finding ← match notice.subject with
    | .reference index => entry.memberOf[index]?.map MemberRef.finding
    | .summary => some Finding.noSummary
  some (entry.origin.filePath ++ " (" ++ entry.title ++ "): " ++ finding.message)

/-- Is something wrong with a reference? -/
def isWrong (atlas : Atlas) (ref : MemberRef) : Bool :=
  (atlas.refFinding? ref).isSome

/-- Is an entry a root without a summary? -/
def lacksSummary (entry : Entry) : Bool :=
  entry.isRoot && (entry.summary.bind Text.nonempty?).isNone

/-- The notices about an entry. -/
def noticesAt (atlas : Atlas) (place : ℕ) (entry : Entry) : List Notice :=
  ((entry.memberOf.zipIdx.filter fun (ref, _) => atlas.isWrong ref).map fun (_, index) =>
    { place, subject := .reference index }) ++
  if lacksSummary entry then [{ place, subject := .summary }] else []

/-- The notices of a review. -/
def notices (atlas : Atlas) : List Notice :=
  atlas.entries.zipIdx.flatMap fun (entry, place) => atlas.noticesAt place entry

/-! ## The order of notices -/

/-- Places ascend. -/
theorem pairwise_zipIdx {α : Type} (l : List α) : l.zipIdx.Pairwise (·.2 < ·.2) := by
  rw [← List.pairwise_map (f := Prod.snd), List.zipIdx_map_snd]
  exact List.pairwise_lt_range'

/-- The notices about an entry have its place. -/
theorem place_of_mem_noticesAt {atlas : Atlas} {place : ℕ} {entry : Entry} {notice : Notice}
    (h : notice ∈ atlas.noticesAt place entry) : notice.place = place := by
  obtain hreference | hsummary := List.mem_append.mp h
  · obtain ⟨_, _, rfl⟩ := List.mem_map.mp hreference
    rfl
  · split at hsummary
    · rw [List.mem_singleton.mp hsummary]
    · exact absurd hsummary List.not_mem_nil

/-- The notices about an entry ascend. -/
theorem pairwise_noticesAt (atlas : Atlas) (place : ℕ) (entry : Entry) :
    (atlas.noticesAt place entry).Pairwise Notice.Before := by
  rw [noticesAt, List.pairwise_append]
  refine ⟨?_, ?_, ?_⟩
  · rw [List.pairwise_map]
    exact ((pairwise_zipIdx entry.memberOf).filter _).imp fun h => .reference h
  · split
    · exact List.pairwise_singleton _ _
    · exact .nil
  · intro first hfirst second hsecond
    obtain ⟨_, _, rfl⟩ := List.mem_map.mp hfirst
    split at hsecond
    · rw [List.mem_singleton.mp hsecond]
      exact .summary
    · exact absurd hsecond List.not_mem_nil

/-- The notices of a review ascend. -/
theorem pairwise_notices (atlas : Atlas) : atlas.notices.Pairwise Notice.Before := by
  rw [notices, List.pairwise_flatMap]
  refine ⟨fun (entry, place) _ => pairwise_noticesAt atlas place entry, ?_⟩
  refine (pairwise_zipIdx atlas.entries).imp fun hplace first hfirst second hsecond => .place ?_
  rw [place_of_mem_noticesAt hfirst, place_of_mem_noticesAt hsecond]
  exact hplace

/-! ## Which notices there are -/

/-- A notice of a review is one about the entry at its place. -/
theorem mem_notices_iff {atlas : Atlas} {notice : Notice} :
    notice ∈ atlas.notices ↔ ∃ entry, atlas.entries[notice.place]? = some entry ∧
      notice ∈ atlas.noticesAt notice.place entry := by
  rw [notices, List.mem_flatMap]
  constructor
  · rintro ⟨⟨entry, place⟩, hentry, hnotice⟩
    obtain rfl := place_of_mem_noticesAt hnotice
    exact ⟨entry, List.mem_zipIdx_iff_getElem?.mp hentry, hnotice⟩
  · rintro ⟨entry, hentry, hnotice⟩
    exact ⟨(entry, notice.place), List.mem_zipIdx_iff_getElem?.mpr hentry, hnotice⟩

/-- A reference of an entry is noticed if it is wrong. -/
theorem reference_mem_notices_iff {atlas : Atlas} {place index : ℕ} {entry : Entry}
    {ref : MemberRef} (hentry : atlas.entries[place]? = some entry)
    (href : entry.memberOf[index]? = some ref) :
    ⟨place, .reference index⟩ ∈ atlas.notices ↔ atlas.isWrong ref = true := by
  simp [mem_notices_iff, hentry, noticesAt, List.mem_zipIdx_iff_getElem?, href]

/-- The summary of an entry is noticed if the entry is a root without one. -/
theorem summary_mem_notices_iff {atlas : Atlas} {place : ℕ} {entry : Entry}
    (hentry : atlas.entries[place]? = some entry) :
    ⟨place, .summary⟩ ∈ atlas.notices ↔ lacksSummary entry = true := by
  simp [mem_notices_iff, hentry, noticesAt]

/-! ## The texts of the notices -/

/-- What is found wrong with a reference depends on its kind. -/
theorem refFinding?_eq (atlas : Atlas) (ref : MemberRef) :
    atlas.refFinding? ref = if atlas.isWrong ref then some ref.finding else none := by
  rw [isWrong, refFinding?, MemberRef.finding]
  by_cases hempty : ref.kind = ""
  · simp [hempty]
  by_cases hnamespace : ref.kind = "namespace"
  · simp only [hnamespace]
    split <;> simp_all
  · simp only [hempty, hnamespace]
    split <;> simp_all

/-- The wrong references of an entry, with what is wrong with them. -/
theorem filterMap_refFinding? (atlas : Atlas) (refs : List MemberRef) :
    refs.filterMap atlas.refFinding? = (refs.filter atlas.isWrong).map MemberRef.finding := by
  rw [← List.filterMap_eq_map, List.filterMap_filter]
  exact List.filterMap_congr fun ref _ => refFinding?_eq atlas ref

/-- The notices about an entry have the texts that a review gives about it. -/
theorem map_noticeText?_noticesAt {atlas : Atlas} {place : ℕ} {entry : Entry}
    (h : atlas.entries[place]? = some entry) :
    (atlas.noticesAt place entry).map atlas.noticeText? =
      (atlas.messagesOf entry).map some := by
  let text (finding : Finding) : Option String :=
    some (entry.origin.filePath ++ " (" ++ entry.title ++ "): " ++ finding.message)
  have hreference : ∀ found ∈ entry.memberOf.zipIdx.filter fun (ref, _) => atlas.isWrong ref,
      atlas.noticeText? ⟨place, .reference found.2⟩ = text found.1.finding := by
    intro (ref, index) hfound
    have href := List.mem_zipIdx_iff_getElem?.mp (List.mem_filter.mp hfound).1
    simp [noticeText?, h, href, text]
  have hreferences : ((entry.memberOf.zipIdx.filter fun (ref, _) => atlas.isWrong ref).map
      fun (_, index) => atlas.noticeText? ⟨place, .reference index⟩) =
      (entry.memberOf.filterMap atlas.refFinding?).map text := by
    rw [List.map_congr_left hreference, filterMap_refFinding?, List.map_map]
    conv_rhs => rw [← List.zipIdx_map_fst 0 entry.memberOf, List.filter_map, List.map_map]
    rfl
  have hsummary : (if lacksSummary entry then [{ place, subject := .summary }] else []).map
      atlas.noticeText? = (if lacksSummary entry then [Finding.noSummary] else []).map text := by
    split
    · simp [noticeText?, h, text]
    · rfl
  rw [noticesAt, messagesOf, findingsOf, List.map_append, List.map_append, List.map_append,
    List.map_map, List.map_map, List.map_map]
  exact congrArg₂ (· ++ ·) hreferences hsummary

/-- The notices of a review have its texts. -/
theorem map_noticeText?_notices (atlas : Atlas) :
    atlas.notices.map atlas.noticeText? = atlas.messages.map some := by
  have hentry : ∀ found ∈ atlas.entries.zipIdx,
      (atlas.noticesAt found.2 found.1).map atlas.noticeText? =
        (atlas.messagesOf found.1).map some :=
    fun (_, _) hfound => map_noticeText?_noticesAt (List.mem_zipIdx_iff_getElem?.mp hfound)
  rw [notices, messages, List.map_flatMap, List.map_flatMap, List.flatMap_congr hentry]
  conv_rhs => rw [← List.zipIdx_map_fst 0 atlas.entries, List.flatMap_map]

/-! ## Linked atlases -/

/-- What a review of an atlas notices, in terms of the registries that it was linked with: in order,
the references that are not resolved and of a kind that reviews look at, and the absent summaries of
roots. A reference is resolved exactly if some entry declares what it names, and then it leads to
the entry itself or is one of the edges to its owners. -/
structure NoticesLost (atlas : Atlas) (registries : Registries) (notices : List Notice) : Prop where
  ordered : notices.Pairwise Notice.Before
  reference_iff : ∀ place entry index ref, atlas.entries[place]? = some entry →
    entry.memberOf[index]? = some ref →
    (⟨place, .reference index⟩ ∈ notices ↔
      registries.resolve? ref = none ∧ ref.kind ∈ MemberRef.reviewedKinds)
  resolved_iff : ∀ ref, (registries.resolve? ref).isSome ↔ ∃ declarer ∈ atlas.entries,
    ref.kind = "namespace" ∧ ref.description ∈ declarer.namespaces ∨
      ref.kind = "module" ∧ ref.description ∈ declarer.modules
  resolved : ∀ entry ∈ atlas.entries, ∀ ref ∈ entry.memberOf, ∀ target,
    registries.resolve? ref = some target → target.id = entry.id ∨
      { id := target.id
        kind := entry.kind
        association := ref.kind
        description := some target.description } ∈ entry.parents
  summary_iff : ∀ place entry, atlas.entries[place]? = some entry →
    (⟨place, .summary⟩ ∈ notices ↔ entry.isRoot = true ∧ entry.summary = none)

variable (comments : List Comment)

/-- Linking keeps what a comment says in its place. -/
theorem exists_of_getElem?_link {place : ℕ} {entry : Entry}
    (h : (link comments).entries[place]? = some entry) :
    ∃ comment ∈ comments, ∃ children, entry =
      { Entry.ofComment comment with
        parents := (Registries.ofEntries (comments.map Entry.ofComment)).parentsOf
          (Entry.ofComment comment)
        children } := by
  rw [link, ofEntries, getElem?_connect, List.getElem?_map, Option.map_map] at h
  obtain ⟨comment, hcomment, rfl⟩ := Option.map_eq_some_iff.mp h
  exact ⟨comment, List.mem_of_getElem? hcomment, _, rfl⟩

/-- Linking resolves a reference exactly if some entry declares what it names. -/
theorem isSome_resolve?_iff (ref : MemberRef) :
    ((Registries.ofEntries (comments.map Entry.ofComment)).resolve? ref).isSome ↔
      ∃ declarer ∈ (link comments).entries,
        ref.kind = "namespace" ∧ ref.description ∈ declarer.namespaces ∨
          ref.kind = "module" ∧ ref.description ∈ declarer.modules := by
  have hdeclares (comment : Comment) : comment.declares ref = true ↔
      ref.kind = "namespace" ∧ ref.description ∈ (Entry.ofComment comment).namespaces ∨
        ref.kind = "module" ∧ ref.description ∈ (Entry.ofComment comment).modules := by
    simp [Comment.declares, Entry.ofComment]
  rw [Registries.resolve?_ofComments, Option.isSome_map, List.find?_isSome]
  simp only [hdeclares]
  constructor
  · rintro ⟨comment, hcomment, hnames⟩
    obtain ⟨place, hplace⟩ := List.mem_iff_getElem?.mp hcomment
    have hentry : ∃ entry, (link comments).entries[place]? = some entry ∧
        entry.namespaces = (Entry.ofComment comment).namespaces ∧
        entry.modules = (Entry.ofComment comment).modules := by
      rw [link, ofEntries, getElem?_connect, List.getElem?_map, hplace]
      exact ⟨_, rfl, rfl, rfl⟩
    obtain ⟨entry, hentry, hnamespaces, hmodules⟩ := hentry
    rw [← hnamespaces, ← hmodules] at hnames
    exact ⟨entry, List.mem_of_getElem? hentry, hnames⟩
  · rintro ⟨declarer, hdeclarer, hnames⟩
    obtain ⟨place, hplace⟩ := List.mem_iff_getElem?.mp hdeclarer
    obtain ⟨comment, hcomment, children, rfl⟩ := exists_of_getElem?_link comments hplace
    exact ⟨comment, hcomment, hnames⟩

/-- In a linked atlas a reference is wrong exactly if linking did not resolve it and its kind is one
that reviews look at. -/
theorem isWrong_link_iff (comment : Comment) (ref : MemberRef) :
    (link comments).isWrong ref = true ↔
      (Registries.ofEntries (comments.map Entry.ofComment)).resolve? ref = none ∧
        ref.kind ∈ MemberRef.reviewedKinds := by
  rw [isWrong, refFinding?_link comments comment ref, Comment.loses_eq,
    Registries.resolve?_ofComments, Option.map_eq_none_iff]
  simp

/-- A tag never has an empty value. -/
theorem value?_bind_nonempty? (tags : Tag.Table) (name : String) :
    (tags.value? name).bind Text.nonempty? = tags.value? name := by
  rw [Tag.Table.value?]
  cases (tags.values name).head? with
  | none => rfl
  | some value =>
    rw [Option.filter_some]
    by_cases h : value = "" <;> simp [h, Text.nonempty?]

/-- A resolved reference leads to the entry itself or gives it an edge. -/
theorem mem_parentsOf_of_resolve? {registries : Registries} (entry : Entry) {ref : MemberRef}
    (href : ref ∈ entry.memberOf) {target : Declaration}
    (htarget : registries.resolve? ref = some target) :
    target.id = entry.id ∨
      { id := target.id
        kind := entry.kind
        association := ref.kind
        description := some target.description } ∈ registries.parentsOf entry := by
  by_cases hid : target.id = entry.id
  · exact .inl hid
  · let tie : Tie :=
      { member := entry.id
        kind := entry.kind
        owner := target.id
        association := ref.kind
        description := target.description }
    have htie : registries.memberTie? entry ref = some tie := by
      rw [Registries.memberTie?, htarget, Option.bind_some, if_neg hid]
    have hmem : tie ∈ registries.memberTies entry := List.mem_filterMap.mpr ⟨ref, href, htie⟩
    exact .inr (Registries.mem_parentsOf_iff.mpr ⟨tie, List.mem_append_left _ hmem, rfl⟩)

/-- What a review notices in a linked atlas. -/
theorem noticesLost_link : NoticesLost (link comments)
    (Registries.ofEntries (comments.map Entry.ofComment)) (link comments).notices where
  ordered := pairwise_notices (link comments)
  reference_iff place entry index ref hentry href := by
    obtain ⟨comment, -⟩ := exists_of_getElem?_link comments hentry
    rw [reference_mem_notices_iff hentry href, isWrong_link_iff comments comment]
  resolved_iff := isSome_resolve?_iff comments
  resolved entry hentry ref href target htarget := by
    obtain ⟨place, hplace⟩ := List.mem_iff_getElem?.mp hentry
    obtain ⟨comment, _, children, rfl⟩ := exists_of_getElem?_link comments hplace
    exact mem_parentsOf_of_resolve? (Entry.ofComment comment) href htarget
  summary_iff place entry hentry := by
    obtain ⟨comment, _, children, rfl⟩ := exists_of_getElem?_link comments hentry
    rw [summary_mem_notices_iff hentry, lacksSummary, Bool.and_eq_true, Option.isNone_iff_eq_none]
    have hsummary := value?_bind_nonempty? comment.tags "summary"
    exact and_congr_right fun _ => iff_of_eq (congrArg (· = none) hsummary)

/-- Linking keeps the comments in their places. -/
theorem map_getElem?_link (place : ℕ) :
    ((link comments).entries[place]?.map fun entry =>
      { entry with parents := [], children := [] }) = comments[place]?.map Entry.ofComment := by
  rw [link, ofEntries, getElem?_connect, List.getElem?_map, Option.map_map, Option.map_map]
  rfl

/-- The review of a linked atlas has one text per notice, in the order of the notices, which is that
of the comments. In strict mode the texts are errors, otherwise warnings. What is noticed are the
references that linking did not resolve, of the kinds that reviews look at, and the absent summaries
of roots. -/
theorem review_notices :
    (∀ place : ℕ, ((link comments).entries[place]?.map fun entry =>
      { entry with parents := [], children := [] }) = comments[place]?.map Entry.ofComment) ∧
    NoticesLost (link comments) (Registries.ofEntries (comments.map Entry.ofComment))
      (link comments).notices ∧
    ∃ texts, (link comments).notices.map (link comments).noticeText? = texts.map some ∧
      (link comments).review false = { errors := [], warnings := texts } ∧
      (link comments).review true = { errors := texts, warnings := [] } :=
  ⟨map_getElem?_link comments, noticesLost_link comments, (link comments).messages,
    map_noticeText?_notices (link comments), rfl, rfl⟩

/-- A reference to what its own comment declares is not noticed, the lost one behind it is. -/
example : (link [Comment.tagged "a" "ui.ts"
      [("namespace", ["\x7bUi\x7d"]), ("memberof", ["namespace:Ui", "module:Gone"])]]).notices =
    [⟨0, .reference 1⟩, ⟨0, .summary⟩] := by
  decide

end Atlas

end DocAtlas
