import DocAtlas.Proofs.Options.Checks
import Mathlib.Data.List.Forall2

/-!
# Checks of lists and records

A list stands for what its items stand for and fails where one of them does. A record stands for what
is taken from its members, a default in the place of a member that is not given, and it fails below
the names of the members that fail. The problems of items and of fields are listed one after the
other, so that the order of the places is that of the items and of the fields.
-/

namespace DocAtlas.Options

open DocAtlas.Text

variable {α β : Type}

/-! ## Lists -/

/-- An array stands for the list of what its items stand for. -/
def IsListOf (stands : Json → α → Prop) (value : Json) (list : List α) : Prop :=
  ∃ items, value = .arr items ∧ List.Forall₂ stands items list

/-- The places at which a list fails: as a whole if it is no array, and otherwise where one of its
items does. -/
inductive ListFails (fails : Json → List Step → Prop) : Json → List Step → Prop where
  | whole {value : Json} (h : ∀ items, value ≠ .arr items) : ListFails fails value []
  | item {items : List Json} {position : Nat} {item : Json} {location : List Step}
      (hitem : items[position]? = some item) (h : fails item location) :
      ListFails fails (.arr items) (.index position :: location)

/-- An array with at least one item stands for a list. -/
def IsNonemptyListOf (stands : Json → α → Prop) (value : Json) (list : List α) : Prop :=
  IsListOf stands value list ∧ list ≠ []

/-- The places at which a list fails that may not be empty: as a whole if it is empty, and otherwise
where any list does. -/
inductive NonemptyListFails (fails : Json → List Step → Prop) : Json → List Step → Prop where
  | empty : NonemptyListFails fails (.arr []) []
  | list {value : Json} {location : List Step} (h : ListFails fails value location) :
      NonemptyListFails fails value location

section Lists

variable {check : Check α} {stands : Json → α → Prop} {fails : Json → List Step → Prop}

/-- The checks of items, counted from some position. -/
theorem settles_checkItems (h : ∀ value, (check value).Settles (stands value) (fails value))
    (position : Nat) (items : List Json) :
    (checkItems check position items).Settles (List.Forall₂ stands items)
      (fun location => ∃ i item rest, items[i]? = some item ∧
        location = .index (position + i) :: rest ∧ fails item rest) := by
  induction items generalizing position with
  | nil =>
    refine Checked.settles_pass (fun list => ?_) fun location hfails => ?_
    · rw [List.forall₂_nil_left_iff, eq_comm]
    · obtain ⟨i, item, rest, hitem, -⟩ := hfails
      simp at hitem
  | cons first rest ih =>
    have hfirst := h first
    have hrest := ih (position + 1)
    refine ⟨fun list => ?_, ?_, (hfirst.sound.under _ |>.map _).apply hrest.sound⟩
    · rw [checkItems, Checked.apply_eq_pass_iff, List.forall₂_cons_left_iff]
      simp only [Checked.map_eq_pass_iff, Checked.under_eq_pass_iff, hfirst.pass_iff, hrest.pass_iff]
      constructor
      · intro hlist
        obtain ⟨_, tail, ⟨a, ha, rfl⟩, htail, rfl⟩ := hlist
        exact ⟨a, tail, ha, htail, rfl⟩
      · intro hlist
        obtain ⟨a, tail, ha, htail, rfl⟩ := hlist
        exact ⟨_, tail, ⟨a, ha, rfl⟩, htail, rfl⟩
    · -- The places of the first item come before those of the others by their position alone.
      rw [checkItems, Checked.problems_apply, Checked.problems_map, Checked.problems_under]
      refine ((hfirst.lists.under (.index position)).append hrest.lists ?_).congr fun location => ?_
      · intro a b ha hb
        obtain ⟨below, rfl, -⟩ := ha
        obtain ⟨i, item, below', -, rfl, -⟩ := hb
        refine before_of_rank_lt ?_ _ _
        simp only [Step.rank]
        omega
      · constructor
        · intro hlocation
          rcases hlocation with ⟨below, rfl, hbelow⟩ | ⟨i, item, below, hitem, rfl, hbelow⟩
          · exact ⟨0, first, below, rfl, rfl, hbelow⟩
          · exact ⟨i + 1, item, below, hitem, by rw [add_assoc, add_comm 1], hbelow⟩
        · intro hlocation
          obtain ⟨i, item, below, hitem, rfl, hbelow⟩ := hlocation
          cases i with
          | zero =>
            obtain rfl : first = item := Option.some.inj hitem
            exact Or.inl ⟨below, rfl, hbelow⟩
          | succ i => exact Or.inr ⟨i, item, below, hitem, by rw [add_assoc, add_comm 1], hbelow⟩

/-- The check of a list. -/
theorem settles_checkList (h : ∀ value, (check value).Settles (stands value) (fails value))
    (value : Json) :
    (checkList check value).Settles (IsListOf stands value) (ListFails fails value) := by
  by_cases harr : ∃ items, value = .arr items
  · obtain ⟨items, rfl⟩ := harr
    have hitems := settles_checkItems h 0 items
    refine ⟨fun list => ?_, hitems.lists.congr fun location => ?_, hitems.sound⟩
    · refine (hitems.pass_iff list).trans ⟨fun hlist => ⟨items, rfl, hlist⟩, fun hlist => ?_⟩
      obtain ⟨_, heq, hlist⟩ := hlist
      cases heq
      exact hlist
    · constructor
      · intro hlocation
        obtain ⟨i, item, below, hitem, rfl, hbelow⟩ := hlocation
        rw [zero_add]
        exact .item hitem hbelow
      · intro hlocation
        cases hlocation with
        | whole hwhole => exact absurd rfl (hwhole items)
        | item hitem hbelow => exact ⟨_, _, _, hitem, by rw [zero_add], hbelow⟩
  · have hno : ∀ items, value ≠ .arr items := fun items heq => harr ⟨items, heq⟩
    have hrefuse : checkList check value = refuse .listType := by
      unfold checkList
      split
      · exact absurd rfl (hno _)
      · rfl
    rw [hrefuse]
    refine Checked.settles_refuse .listType (fun list hlist => ?_) fun location => ⟨fun hlocation => ?_,
      fun hlocation => hlocation ▸ .whole hno⟩
    · obtain ⟨items, heq, -⟩ := hlist
      exact hno items heq
    · cases hlocation with
      | whole => rfl
      | item => exact absurd rfl (hno _)

/-- The check of a list that may not be empty. -/
theorem settles_checkNonempty (h : ∀ value, (check value).Settles (stands value) (fails value))
    (value : Json) :
    (checkNonempty check value).Settles (IsNonemptyListOf stands value)
      (NonemptyListFails fails value) := by
  unfold checkNonempty
  split
  · refine Checked.settles_refuse .tooShort (fun list hlist => ?_) fun location => ⟨fun hlocation => ?_,
      fun hlocation => hlocation ▸ .empty⟩
    · obtain ⟨⟨items, heq, hitems⟩, hne⟩ := hlist
      cases heq
      exact hne (List.forall₂_nil_left_iff.mp hitems)
    · cases hlocation with
      | empty => rfl
      | list hlist =>
        cases hlist with
        | whole => rfl
        | item hitem => simp at hitem
  · next hne =>
    have hlist := settles_checkList h value
    refine ⟨fun list => ?_, hlist.lists.congr fun location => ?_, hlist.sound⟩
    · refine (hlist.pass_iff list).trans ⟨fun hstands => ⟨hstands, ?_⟩, And.left⟩
      rintro rfl
      obtain ⟨items, rfl, hitems⟩ := hstands
      obtain rfl := List.forall₂_nil_right_iff.mp hitems
      exact hne rfl
    · refine ⟨.list, fun hlocation => ?_⟩
      cases hlocation with
      | empty => exact absurd rfl hne
      | list h => exact h

end Lists

/-! ## Records -/

/-- A field is what its value stands for, or its default if there is no value. -/
def Taken (stands : Json → α → Prop) (default : α) : Option Json → α → Prop
  | none, a => a = default
  | some value, a => stands value a

/-- The places at which a record fails: below the name of a field, where its value fails. -/
inductive RecordFails (fields : List (String × (Json → List Step → Prop)))
    (value? : String → Option Json) : List Step → Prop where
  | field {name : String} {fails : Json → List Step → Prop} {value : Json} {location : List Step}
      (hfield : (name, fails) ∈ fields) (hvalue : value? name = some value)
      (h : fails value location) : RecordFails fields value? (.key name :: location)

/-- The problems of a field. -/
def fieldProblems (members : Members) (name : String) (problems : Json → List Problem) :
    List Problem :=
  match members.lookup name with
  | none => []
  | some value => (problems value).map (Problem.under (.key name))

section Records

variable {members : Members} {name : String} {default a : α} {check : Check α}
  {stands : Json → α → Prop}

/-- The problems of a member are those of its check, below its name. -/
theorem problems_member : (member members name default check).problems =
    fieldProblems members name fun value => (check value).problems := by
  rw [member, fieldProblems]
  cases members.lookup name with
  | none => rfl
  | some value => rw [Checked.problems_under]

/-- A member passes with what is taken for it. -/
theorem member_eq_pass_iff (h : ∀ value a, check value = .pass a ↔ stands value a) :
    member members name default check = .pass a ↔ Taken stands default (members.lookup name) a := by
  rw [member]
  cases members.lookup name with
  | none => simp only [Checked.pass.injEq, Taken, eq_comm]
  | some value => exact Checked.under_eq_pass_iff.trans (h value a)

/-- A member is sound if its check is. -/
theorem sound_member (h : ∀ value, (check value).Sound) :
    (member members name default check).Sound := by
  rw [member]
  cases members.lookup name with
  | none => simp [Checked.Sound]
  | some value => exact (h value).under _

/-- A record fails at its first field or at the others. -/
theorem recordFails_cons_iff {fails : Json → List Step → Prop}
    {fields : List (String × (Json → List Step → Prop))} {value? : String → Option Json}
    {location : List Step} :
    RecordFails ((name, fails) :: fields) value? location ↔
      (∃ value, value? name = some value ∧ Below (.key name) (fails value) location) ∨
        RecordFails fields value? location := by
  constructor
  · intro h
    cases h with
    | field hfield hvalue h =>
      rcases List.mem_cons.mp hfield with heq | hfield
      · cases heq
        exact Or.inl ⟨_, hvalue, _, rfl, h⟩
      · exact Or.inr (.field hfield hvalue h)
  · intro h
    rcases h with ⟨value, hvalue, rest, rfl, h⟩ | h
    · exact .field List.mem_cons_self hvalue h
    · cases h with
      | field hfield hvalue h => exact .field (List.mem_cons_of_mem _ hfield) hvalue h

/-- The problems of the fields of a record, one after the other, name the places at which the record
fails. -/
theorem lists_recordFails {checks : List (String × (Json → List Problem))}
    {fields : List (String × (Json → List Step → Prop))}
    (h : List.Forall₂ (fun check field => check.1 = field.1 ∧
      ∀ value, Lists (field.2 value) (check.2 value)) checks fields)
    (hordered : fields.Pairwise fun a b => (Step.key a.1).rank < (Step.key b.1).rank) :
    Lists (RecordFails fields (members.lookup ·))
      (checks.flatMap fun check => fieldProblems members check.1 check.2) := by
  induction h with
  | nil => exact .nil fun _ hfails => by cases hfails with | field hfield => simp at hfield
  | @cons check field checks fields hfirst hrest ih =>
    obtain ⟨name, fails⟩ := field
    obtain ⟨rfl, hlists⟩ := hfirst
    obtain ⟨hbefore, hordered⟩ := List.pairwise_cons.mp hordered
    -- A field that is not given has no problems, and there is no place at which it fails.
    have hfield : Lists (fun location => ∃ value, members.lookup check.1 = some value ∧
        Below (.key check.1) (fails value) location) (fieldProblems members check.1 check.2) := by
      rw [fieldProblems]
      cases members.lookup check.1 with
      | none => exact .nil (by simp)
      | some value =>
        exact ((hlists value).under _).congr fun location => by simp
    rw [List.flatMap_cons]
    refine (hfield.append (ih hordered) ?_).congr fun location => by rw [recordFails_cons_iff]
    intro a b ha hb
    obtain ⟨value, -, rest, rfl, -⟩ := ha
    cases hb with
    | field hmem => exact before_of_rank_lt (hbefore _ hmem) _ _

end Records

/-! ## Page settings -/

/-- The check of a list of strings. -/
theorem settles_checkStrings (value : Json) :
    (checkList checkString value).Settles (IsListOf IsText value) (ListFails (Unfit IsText) value) :=
  settles_checkList settles_checkString value

/-- Page settings are taken from values that are given by name. -/
structure PageTaken (value? : String → Option Json) (page : PageSettings LooseString) : Prop where
  metaEntries : Taken (IsListOf IsText) (PageSettings.standard.map .ofString).metaEntries
    (value? "meta") page.metaEntries
  scripts : Taken (IsListOf IsText) (PageSettings.standard.map .ofString).scripts
    (value? "scripts") page.scripts
  styles : Taken (IsListOf IsText) (PageSettings.standard.map .ofString).styles
    (value? "styles") page.styles
  bodyClasses : Taken (IsListOf IsText) (PageSettings.standard.map .ofString).bodyClasses
    (value? "body_classes") page.bodyClasses

/-- An object stands for the page settings that are taken from its members. -/
def IsPage (value : Json) (page : PageSettings LooseString) : Prop :=
  ∃ members, value = .obj members ∧ PageTaken (members.lookup ·) page

/-- Where the fields of page settings fail. -/
def pageFields : List (String × (Json → List Step → Prop)) :=
  pageNames.map fun name => (name, ListFails (Unfit IsText))

/-- The places at which page settings fail: as a whole if they are no object, and otherwise where
one of the members does. -/
inductive PageFails : Json → List Step → Prop where
  | whole {value : Json} (h : ∀ members, value ≠ .obj members) : PageFails value []
  | record {members : Members} {location : List Step}
      (h : RecordFails pageFields (members.lookup ·) location) : PageFails (.obj members) location

/-- The check of an object of page settings. -/
theorem settles_checkPage_obj (members : Members) :
    (checkPage (.obj members)).Settles (PageTaken (members.lookup ·))
      (RecordFails pageFields (members.lookup ·)) := by
  have hmember (name : String) (default list : List LooseString) :
      member members name default (checkList checkString) = .pass list ↔
        Taken (IsListOf IsText) default (members.lookup name) list :=
    member_eq_pass_iff fun value list => (settles_checkStrings value).pass_iff list
  have hsound (name : String) (default : List LooseString) :
      (member members name default (checkList checkString)).Sound :=
    sound_member fun value => (settles_checkStrings value).sound
  refine ⟨fun page => ?_, ?_, ?_⟩
  · simp only [checkPage, Checked.apply_eq_pass_iff, Checked.map_eq_pass_iff, hmember]
    constructor
    · intro h
      obtain ⟨_, classes, ⟨_, styles, ⟨_, scripts, ⟨entries, hentries, rfl⟩, hscripts, rfl⟩, hstyles,
        rfl⟩, hclasses, rfl⟩ := h
      exact ⟨hentries, hscripts, hstyles, hclasses⟩
    · intro h
      exact ⟨_, _, ⟨_, _, ⟨_, _, ⟨_, h.metaEntries, rfl⟩, h.scripts, rfl⟩, h.styles, rfl⟩,
        h.bodyClasses, rfl⟩
  · have hproblems : (checkPage (.obj members)).problems =
        (pageNames.map fun name => (name, fun value => (checkList checkString value).problems)).flatMap
          fun check => fieldProblems members check.1 check.2 := by
      simp [checkPage, problems_member, pageNames]
    rw [hproblems]
    refine lists_recordFails ?_ (by decide)
    rw [pageFields, List.forall₂_map_left_iff, List.forall₂_map_right_iff, List.forall₂_same]
    exact fun name _ => ⟨rfl, fun value => (settles_checkStrings value).lists⟩
  · exact ((((hsound _ _).map _).apply (hsound _ _)).apply (hsound _ _)).apply (hsound _ _)

/-- The check of page settings. -/
theorem settles_checkPage (value : Json) :
    (checkPage value).Settles (IsPage value) (PageFails value) := by
  by_cases hobj : ∃ members, value = .obj members
  · obtain ⟨members, rfl⟩ := hobj
    have hmembers := settles_checkPage_obj members
    refine ⟨fun page => ?_, hmembers.lists.congr fun location => ?_, hmembers.sound⟩
    · refine (hmembers.pass_iff page).trans ⟨fun h => ⟨members, rfl, h⟩, fun h => ?_⟩
      obtain ⟨_, heq, h⟩ := h
      cases heq
      exact h
    · refine ⟨.record, fun hlocation => ?_⟩
      cases hlocation with
      | whole hwhole => exact absurd rfl (hwhole members)
      | record h => exact h
  · have hno : ∀ members, value ≠ .obj members := fun members heq => hobj ⟨members, heq⟩
    have hrefuse : checkPage value = refuse .recordType := by
      unfold checkPage
      split
      · exact absurd rfl (hno _)
      · rfl
    rw [hrefuse]
    refine Checked.settles_refuse .recordType (fun page hpage => ?_) fun location =>
      ⟨fun hlocation => ?_, fun hlocation => hlocation ▸ .whole hno⟩
    · obtain ⟨members, heq, -⟩ := hpage
      exact hno members heq
    · cases hlocation with
      | whole => rfl
      | record => exact absurd rfl (hno _)

/-! ## Options -/

/-- Options are taken from values that are given by name, each from the value of its own name. -/
structure TakenFrom (value? : String → Option Json) (options : Options) : Prop where
  targetPath : Taken IsText ({} : Options).targetPath (value? "target_path") options.targetPath
  ignorePaths : Taken (IsListOf IsText) ({} : Options).ignorePaths (value? "ignore_paths")
    options.ignorePaths
  fileTypes : Taken (IsNonemptyListOf IsText) ({} : Options).fileTypes (value? "file_types")
    options.fileTypes
  outputPath : Taken IsText ({} : Options).outputPath (value? "output_path") options.outputPath
  outputName : Taken (IsBounded 1 maxNameLength) ({} : Options).outputName (value? "output_name")
    options.outputName
  formats : Taken (IsListOf (IsNamed Format.name)) ({} : Options).formats (value? "output_formats")
    options.formats
  title : Taken IsText ({} : Options).title (value? "title") options.title
  logLevel : Taken (IsNamed LogLevel.name) ({} : Options).logLevel (value? "log_level")
    options.logLevel
  strict : Taken IsTruth ({} : Options).strict (value? "strict") options.strict
  page : Taken IsPage ({} : Options).page (value? "html") options.page

/-- Where the fields of options fail. -/
def optionFields : List (String × (Json → List Step → Prop)) :=
  [("target_path", Unfit IsText),
    ("ignore_paths", ListFails (Unfit IsText)),
    ("file_types", NonemptyListFails (Unfit IsText)),
    ("output_path", Unfit IsText),
    ("output_name", Unfit (IsBounded 1 maxNameLength)),
    ("output_formats", ListFails (Unfit (IsNamed Format.name))),
    ("title", Unfit IsText),
    ("log_level", Unfit (IsNamed LogLevel.name)),
    ("strict", Unfit IsTruth),
    ("html", PageFails)]

/-- The check of a list of at least one string. -/
theorem settles_checkTypes (value : Json) :
    (checkNonempty checkString value).Settles (IsNonemptyListOf IsText value)
      (NonemptyListFails (Unfit IsText) value) :=
  settles_checkNonempty settles_checkString value

/-- The check of a list of forms of output. -/
theorem settles_checkFormats (value : Json) :
    (checkList (checkWord Format.words) value).Settles (IsListOf (IsNamed Format.name) value)
      (ListFails (Unfit (IsNamed Format.name)) value) :=
  settles_checkList settles_checkFormat value

/-- The options of a record pass with what is taken from its members. -/
theorem ofMembers_eq_pass_iff {members : Members} {options : Options} :
    ofMembers members = .pass options ↔ TakenFrom (members.lookup ·) options := by
  simp only [ofMembers, Checked.apply_eq_pass_iff, Checked.map_eq_pass_iff,
    member_eq_pass_iff fun value => (settles_checkString value).pass_iff,
    member_eq_pass_iff fun value => (settles_checkStrings value).pass_iff,
    member_eq_pass_iff fun value => (settles_checkTypes value).pass_iff,
    member_eq_pass_iff fun value => (settles_checkBounded 1 maxNameLength value).pass_iff,
    member_eq_pass_iff fun value => (settles_checkFormats value).pass_iff,
    member_eq_pass_iff fun value => (settles_checkLevel value).pass_iff,
    member_eq_pass_iff fun value => (settles_checkBool value).pass_iff,
    member_eq_pass_iff fun value => (settles_checkPage value).pass_iff]
  constructor
  · intro h
    obtain ⟨_, _, ⟨_, _, ⟨_, _, ⟨_, _, ⟨_, _, ⟨_, _, ⟨_, _, ⟨_, _, ⟨_, _, ⟨_, htarget, rfl⟩, hignore,
      rfl⟩, htypes, rfl⟩, houtput, rfl⟩, hname, rfl⟩, hformats, rfl⟩, htitle, rfl⟩, hlevel, rfl⟩,
      hstrict, rfl⟩, hpage, rfl⟩ := h
    exact ⟨htarget, hignore, htypes, houtput, hname, hformats, htitle, hlevel, hstrict, hpage⟩
  · intro h
    exact ⟨_, _, ⟨_, _, ⟨_, _, ⟨_, _, ⟨_, _, ⟨_, _, ⟨_, _, ⟨_, _, ⟨_, _, ⟨_, h.targetPath, rfl⟩,
      h.ignorePaths, rfl⟩, h.fileTypes, rfl⟩, h.outputPath, rfl⟩, h.outputName, rfl⟩, h.formats,
      rfl⟩, h.title, rfl⟩, h.logLevel, rfl⟩, h.strict, rfl⟩, h.page, rfl⟩

/-- The problems of the options of a record name the places at which it fails. -/
theorem lists_ofMembers (members : Members) :
    Lists (RecordFails optionFields (members.lookup ·)) (ofMembers members).problems := by
  have hproblems : (ofMembers members).problems =
      [("target_path", fun value => (checkString value).problems),
        ("ignore_paths", fun value => (checkList checkString value).problems),
        ("file_types", fun value => (checkNonempty checkString value).problems),
        ("output_path", fun value => (checkString value).problems),
        ("output_name", fun value => (checkBounded 1 maxNameLength value).problems),
        ("output_formats", fun value => (checkList (checkWord Format.words) value).problems),
        ("title", fun value => (checkString value).problems),
        ("log_level", fun value => (checkWord LogLevel.words value).problems),
        ("strict", fun value => (checkBool value).problems),
        ("html", fun value => (checkPage value).problems)].flatMap
          fun check => fieldProblems members check.1 check.2 := by
    simp [ofMembers, problems_member]
  rw [hproblems]
  refine lists_recordFails ?_ (by decide)
  exact .cons ⟨rfl, fun value => (settles_checkString value).lists⟩
    (.cons ⟨rfl, fun value => (settles_checkStrings value).lists⟩
    (.cons ⟨rfl, fun value => (settles_checkTypes value).lists⟩
    (.cons ⟨rfl, fun value => (settles_checkString value).lists⟩
    (.cons ⟨rfl, fun value => (settles_checkBounded 1 maxNameLength value).lists⟩
    (.cons ⟨rfl, fun value => (settles_checkFormats value).lists⟩
    (.cons ⟨rfl, fun value => (settles_checkString value).lists⟩
    (.cons ⟨rfl, fun value => (settles_checkLevel value).lists⟩
    (.cons ⟨rfl, fun value => (settles_checkBool value).lists⟩
    (.cons ⟨rfl, fun value => (settles_checkPage value).lists⟩ .nil)))))))))

/-- Options that do not pass have a problem. -/
theorem sound_ofMembers (members : Members) : (ofMembers members).Sound := by
  have hstring (name : String) (default : LooseString) :
      (member members name default checkString).Sound :=
    sound_member fun value => (settles_checkString value).sound
  have htarget := (hstring "target_path" ({} : Options).targetPath).map Options.mk
  exact (((((((((htarget.apply
    (sound_member fun value => (settles_checkStrings value).sound)).apply
    (sound_member fun value => (settles_checkTypes value).sound)).apply (hstring _ _)).apply
    (sound_member fun value => (settles_checkBounded 1 maxNameLength value).sound)).apply
    (sound_member fun value => (settles_checkFormats value).sound)).apply (hstring _ _)).apply
    (sound_member fun value => (settles_checkLevel value).sound)).apply
    (sound_member fun value => (settles_checkBool value).sound)).apply
    (sound_member fun value => (settles_checkPage value).sound))

/-- The check of all options of a record. -/
theorem settles_ofMembers (members : Members) :
    (ofMembers members).Settles (TakenFrom (members.lookup ·))
      (RecordFails optionFields (members.lookup ·)) :=
  ⟨fun _ => ofMembers_eq_pass_iff, lists_ofMembers members, sound_ofMembers members⟩

/-- Only the members with the name of an option count. -/
theorem ofMembers_congr {members others : Members}
    (h : ∀ name ∈ optionNames, members.lookup name = others.lookup name) :
    ofMembers members = ofMembers others := by
  simp only [optionNames, List.forall_mem_cons, List.not_mem_nil, false_implies, implies_true,
    and_true] at h
  obtain ⟨htarget, hignore, htypes, houtput, hname, hformats, htitle, hlevel, hstrict, hpage⟩ := h
  simp only [ofMembers, member, htarget, hignore, htypes, houtput, hname, hformats, htitle, hlevel,
    hstrict, hpage]

end DocAtlas.Options
