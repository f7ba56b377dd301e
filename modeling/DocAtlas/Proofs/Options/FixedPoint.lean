import DocAtlas.Options.Record
import DocAtlas.Proofs.Options.Loading

/-!
# Loaded options are loaded again

Whatever options are loaded from, their name has an admitted length and there is an extension among
them. No more is needed for their JSON form to be taken for the same options: every value that is
accepted is turned into one that stands for itself. So the options come back from a configuration
that holds their JSON form, and from overrides that give all of it on top of any configuration.
-/

namespace DocAtlas

open DocAtlas.Text

namespace Options

/-! ## Options that can be loaded -/

/-- Options that can be loaded: the name of the documents has an admitted length, and files with some
extension are read. -/
structure Loadable (options : Options) : Prop where
  name : 1 ≤ options.outputName.length ∧ options.outputName.length ≤ maxNameLength
  types : options.fileTypes ≠ []

variable {options : Options} {value? : String → Option Json}

/-- Options that are taken from values can be loaded. -/
theorem TakenFrom.loadable (h : TakenFrom value? options) : options.Loadable := by
  constructor
  · have hname := h.outputName
    cases hvalue : value? "output_name" with
    | none =>
      rw [hvalue] at hname
      rw [show options.outputName = _ from hname]
      decide
    | some value =>
      rw [hvalue] at hname
      exact hname.2
  · have htypes := h.fileTypes
    cases hvalue : value? "file_types" with
    | none =>
      rw [hvalue] at htypes
      rw [show options.fileTypes = _ from htypes]
      decide
    | some value =>
      rw [hvalue] at htypes
      exact htypes.2

/-! ## The JSON form stands for the options -/

/-- The JSON form of a text stands for the text. -/
theorem isText_ofLoose (text : LooseString) : IsText (.ofLoose text) text := by
  rw [Json.ofLoose]
  cases hstring : text.toString? with
  | none => exact .loose text
  | some s =>
    obtain rfl := LooseString.eq_ofString_of_toString? hstring
    exact .str s

/-- An array stands for a list if its items stand for those of the list. -/
theorem isListOf_map {α : Type} {stands : Json → α → Prop} {toJson : α → Json}
    (h : ∀ a, stands (toJson a) a) (list : List α) :
    IsListOf stands (.arr (list.map toJson)) list := by
  refine ⟨list.map toJson, rfl, ?_⟩
  rw [List.forall₂_map_left_iff, List.forall₂_same]
  exact fun a _ => h a

/-- The JSON form of page settings stands for the settings. -/
theorem isPage_toMembers (page : PageSettings LooseString) : IsPage (.obj page.toMembers) page := by
  refine ⟨page.toMembers, rfl, ?_⟩
  constructor <;> exact isListOf_map isText_ofLoose _

/-- Options that can be loaded are taken from the members of their JSON form. -/
theorem Loadable.takenFrom (h : options.Loadable) : TakenFrom (options.toMembers.lookup ·) options where
  targetPath := isText_ofLoose _
  ignorePaths := isListOf_map isText_ofLoose _
  fileTypes := ⟨isListOf_map isText_ofLoose _, h.types⟩
  outputPath := isText_ofLoose _
  outputName := ⟨rfl, h.name⟩
  formats := by
    have hname (format : Format) : IsNamed Format.name ((Json.str ∘ Format.name) format) format := rfl
    change IsListOf _ (.arr ((options.formats.map Format.name).map Json.str)) _
    rw [List.map_map]
    exact isListOf_map hname _
  title := isText_ofLoose _
  logLevel := rfl
  strict := .bool _
  page := isPage_toMembers _

/-- The members of the JSON form of options have the names of the options, each once. -/
theorem map_fst_toMembers (options : Options) : options.toMembers.map Prod.fst = optionNames :=
  rfl

/-- No name is that of two options. -/
theorem nodup_optionNames : optionNames.Nodup := by
  decide

/-- Members that are those of the JSON form in any order are looked up in the same way, from the front
and from the back. -/
theorem lookup_reverse_of_perm {members : Members} (h : members.Perm options.toMembers)
    (name : String) : members.reverse.lookup name = options.toMembers.lookup name := by
  have hperm : members.reverse.Perm options.toMembers := (List.reverse_perm members).trans h
  have hnames : (options.toMembers.map Prod.fst).Nodup := nodup_optionNames
  have hreverse : (members.reverse.map Prod.fst).Nodup := (hperm.map Prod.fst).nodup_iff.mpr hnames
  apply Option.ext
  intro value
  rw [lookup_eq_some_iff_mem hreverse, lookup_eq_some_iff_mem hnames, hperm.mem_iff]

/-- The JSON form of options holds no null, so that all of its members override. -/
theorem effective_of_perm {members : Members} (h : members.Perm options.toMembers) :
    effective members = members := by
  have hloose (text : LooseString) : (Json.ofLoose text).isNull = false := by
    rw [Json.ofLoose]
    split <;> rfl
  have hall : ∀ member ∈ options.toMembers, member.2.isNull = false := by
    simp only [toMembers, List.forall_mem_cons, hloose, true_and]
    exact ⟨rfl, rfl, rfl, rfl, rfl, rfl, rfl, by simp⟩
  rw [effective, List.filter_eq_self]
  intro member hmember
  rw [hall member (h.mem_iff.mp hmember), Bool.not_false]

/-! ## The written form is read back -/

/-- The texts of options in which half of a surrogate pair may stand alone. -/
def texts (options : Options) : List LooseString :=
  options.targetPath :: options.outputPath :: options.title :: (options.ignorePaths ++
    options.fileTypes ++ options.page.metaEntries ++ options.page.scripts ++ options.page.styles ++
    options.page.bodyClasses)

/-- No half of a surrogate pair stands alone in the texts of options. -/
def Whole (options : Options) : Prop :=
  ∀ text ∈ options.texts, ∃ s : String, text = s

/-- The JSON form of options without halves that stand alone is plain. -/
theorem Whole.plain (h : options.Whole) : options.toJson.Plain := by
  have htext (text : LooseString) (hmem : text ∈ options.texts) : (Json.ofLoose text).Plain := by
    obtain ⟨s, rfl⟩ := h text hmem
    rw [Json.ofLoose_ofString]
    exact .str s
  have hlist (list : List LooseString) (hsub : list ⊆ options.texts) :
      (Json.ofLooseStrings list).Plain := by
    apply Json.Plain.arr
    intro item hitem
    obtain ⟨text, hmem, rfl⟩ := List.mem_map.mp hitem
    exact htext text (hsub hmem)
  have hformats : (Json.ofStrings (options.formats.map Format.name)).Plain := by
    apply Json.Plain.arr
    intro item hitem
    obtain ⟨s, -, rfl⟩ := List.mem_map.mp hitem
    exact .str s
  have hpage : (Json.obj options.page.toMembers).Plain := by
    have hnames : (options.page.toMembers.map Prod.fst).Nodup := (by decide : pageNames.Nodup)
    apply Json.Plain.obj hnames
    simp only [PageSettings.toMembers, List.forall_mem_cons, List.not_mem_nil, false_implies,
      implies_true, and_true]
    refine ⟨hlist _ ?_, hlist _ ?_, hlist _ ?_, hlist _ ?_⟩ <;>
    · intro text hmem
      simp [texts, hmem]
  apply Json.Plain.obj (map_fst_toMembers options ▸ nodup_optionNames)
  simp only [toMembers, List.forall_mem_cons, List.not_mem_nil, false_implies, implies_true, and_true]
  refine ⟨htext _ ?_, hlist _ ?_, hlist _ ?_, htext _ ?_, .str _, hformats, htext _ ?_, .str _, .bool _,
    hpage⟩
  · simp [texts]
  · intro text hmem
    simp [texts, hmem]
  · intro text hmem
    simp [texts, hmem]
  · simp [texts]
  · simp [texts]

/-- A configuration that holds the written JSON form of options gives its members. -/
theorem Whole.members_eq (h : options.Whole) {path : String}
    (hpath : (Path.ofString path).hasNull = false) :
    ConfigFile.members { path, bytes := some options.toJson.write.toUTF8 } = .ok options.toMembers := by
  have hreturn : '\r' ∉ options.toJson.write.toList := by
    intro hmem
    exact absurd (h.plain.printed_write _ hmem) (by decide)
  have hread : Json.read options.toJson.write = .ok (.obj options.toMembers) := h.plain.read_write
  simp only [ConfigFile.members, hpath, decode?_toUTF8 hreturn, hread]
  rfl

/-! ## Loading again -/

variable {config : Option ConfigFile} {members overrides : Members}

/-- Options that can be loaded pass the check of their own members. -/
theorem Loadable.ofMembers_eq (h : options.Loadable)
    (hmembers : ∀ name ∈ optionNames, members.lookup name = options.toMembers.lookup name) :
    ofMembers members = .pass options := by
  rw [ofMembers_congr hmembers]
  exact ofMembers_eq_pass_iff.mpr h.takenFrom

/-- What is loaded can be loaded. -/
theorem loadable_of_load_eq_ok (h : load config overrides = .ok options) : options.Loadable := by
  by_cases hgives : ∃ pairs, Gives config pairs
  · obtain ⟨pairs, hgives⟩ := hgives
    rw [hgives.load_eq] at h
    cases hchecked : ofMembers (override (Keyed.ofPairs pairs) overrides) with
    | pass found =>
      rw [hchecked] at h
      obtain rfl : found = options := Except.ok.inj h
      exact (ofMembers_eq_pass_iff.mp hchecked).loadable
    | fail problems =>
      rw [hchecked] at h
      cases h
  · obtain ⟨cause, herror, -⟩ := exists_load_eq_error (not_exists.mp hgives) overrides
    rw [herror] at h
    cases h

/-- Options that can be loaded are loaded from their written JSON form. -/
theorem Loadable.load_write (h : options.Loadable) (hwhole : options.Whole) {path : String}
    (hpath : (Path.ofString path).hasNull = false) :
    load (some { path, bytes := some options.toJson.write.toUTF8 }) [] = .ok options := by
  obtain ⟨pairs, hgives, hpairs⟩ := members_eq_ok_iff.mp (hwhole.members_eq hpath)
  rw [hgives.load_eq, ← hpairs]
  change resultOf _ (ofMembers options.toMembers) = _
  rw [h.ofMembers_eq fun _ _ => rfl, resultOf]

/-- Options that can be loaded are loaded from overrides that give all of them, in any order and on top
of any configuration. -/
theorem Loadable.load_override (h : options.Loadable) {pairs : Members} (hgives : Gives config pairs)
    (hperm : overrides.Perm options.toMembers) : load config overrides = .ok options := by
  have hnames : (options.toMembers.map Prod.fst).Nodup := nodup_optionNames
  have hlookup : ∀ name ∈ optionNames,
      (override (Keyed.ofPairs pairs) overrides).lookup name = options.toMembers.lookup name := by
    intro name hname
    rw [← map_fst_toMembers options] at hname
    obtain ⟨⟨_, value⟩, hmem, rfl⟩ := List.mem_map.mp hname
    have hvalue := (lookup_eq_some_iff_mem hnames).mpr hmem
    rw [lookup_override, candidate?, effective_of_perm hperm, lookup_reverse_of_perm hperm,
      hvalue, Option.some_or]
  rw [hgives.load_eq, h.ofMembers_eq hlookup, resultOf]

/-- Loaded options are a fixed point of loading: whatever configuration and overrides they come from,
they are loaded from a configuration that holds their written JSON form, if no half of a surrogate pair
stands alone in them, and from overrides that give all of their JSON form, in any order and on top of
any other configuration. -/
theorem load_loaded {config : Option ConfigFile} {overrides : Members} {options : Options}
    (h : load config overrides = .ok options) :
    (options.Whole → ∀ path : String, (Path.ofString path).hasNull = false →
      load (some { path, bytes := some options.toJson.write.toUTF8 }) [] = .ok options) ∧
    ∀ (other : Option ConfigFile) (pairs given : Members), Gives other pairs →
      given.Perm options.toMembers → load other given = .ok options := by
  have hloadable := loadable_of_load_eq_ok h
  constructor
  · intro hwhole path hpath
    exact hloadable.load_write hwhole hpath
  · intro other pairs given hgives hperm
    exact hloadable.load_override hgives hperm

/-- Overrides with a word for a truth value, a title full of characters that are escaped, and page
settings that are given in part. -/
def mixedOverrides : Members :=
  [("strict", .str "ON"), ("title", .str "\"é\r\n\\😀"), ("html", .obj [("scripts", .arr [.str ""])])]

/-- What is loaded from them. -/
def mixedOptions : Options where
  strict := true
  title := "\"é\r\n\\😀"
  page := { PageSettings.standard.map LooseString.ofString with scripts := [""] }

/-- These options are loaded from the overrides, from their written JSON form, and from that form as
overrides from last to first on top of a configuration with another title. -/
theorem load_loaded_mixed :
    load none mixedOverrides = .ok mixedOptions ∧ mixedOptions.Whole ∧
    load (some { path := "d.json", bytes := some mixedOptions.toJson.write.toUTF8 }) [] =
      .ok mixedOptions ∧
    Gives (some { path := "c.json", bytes := some titleText.toUTF8 }) titlePairs ∧
    load (some { path := "c.json", bytes := some titleText.toUTF8 }) mixedOptions.toMembers.reverse =
      .ok mixedOptions := by
  have hload : load none mixedOverrides = .ok mixedOptions := by decide +kernel
  have hwhole : mixedOptions.Whole := by
    simp [Whole, texts, mixedOptions, PageSettings.map, PageSettings.standard]
  have hgives : Gives (some { path := "c.json", bytes := some titleText.toUTF8 }) titlePairs :=
    .file (by decide +kernel) rfl (by decide +kernel) spellsObject_titleText
  have hagain := load_loaded hload
  exact ⟨hload, hwhole, hagain.1 hwhole "d.json" (by decide +kernel), hgives,
    hagain.2 _ _ _ hgives (List.reverse_perm _)⟩

end Options

end DocAtlas
