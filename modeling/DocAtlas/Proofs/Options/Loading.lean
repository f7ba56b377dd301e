import DocAtlas.Options.Load
import DocAtlas.Proofs.Json.Objects
import DocAtlas.Proofs.Options.Records

/-!
# Loading options field by field

Each option has at most one value that counts: the last override of its name that is not null, or
else the last value that the configuration file writes for it. Loading depends on these values only.
It gives the options that are taken from them, and if some of them fail it reports exactly the places
at which they do.
-/

namespace DocAtlas

open DocAtlas.Text

/-- Is a value absent? -/
def Json.isNull : Json → Bool
  | .null => true
  | _ => false

namespace Options

/-! ## The values that count -/

/-- The overrides that are not null. -/
def effective (overrides : Members) : Members :=
  overrides.filter fun pair => !pair.2.isNull

/-- The value that counts for a name: the last override that is not null, or else the last value that
is written. -/
def candidate? (pairs overrides : Members) (name : String) : Option Json :=
  ((effective overrides).reverse.lookup name).or (pairs.reverse.lookup name)

/-- Overrides that are not null are put on top of the members, one after the other. -/
theorem override_eq_foldl (members overrides : Members) :
    override members overrides =
      (effective overrides).foldl (fun found (name, value) => Keyed.put name value found) members := by
  rw [override, effective, List.foldl_filter]
  congr 1
  funext found pair
  obtain ⟨name, value⟩ := pair
  cases value <;> rfl

/-- On top of members that are written, overrides leave the value that counts. -/
theorem lookup_override (pairs overrides : Members) (name : String) :
    (override (Keyed.ofPairs pairs) overrides).lookup name = candidate? pairs overrides name := by
  rw [override_eq_foldl, Keyed.lookup_foldl_put, Keyed.ofPairs, Keyed.lookup_foldl_put,
    List.lookup_nil, Option.or_none, candidate?]

/-- The pairs with the name of an option. -/
def known (pairs : Members) : Members :=
  pairs.filter fun pair => pair.1 ∈ optionNames

/-- The last value of the name of an option is among the known pairs. -/
theorem lookup_reverse_known (pairs : Members) {name : String} (h : name ∈ optionNames) :
    (known pairs).reverse.lookup name = pairs.reverse.lookup name := by
  rw [known, ← List.filter_reverse]
  induction pairs.reverse with
  | nil => rfl
  | cons first rest ih =>
    obtain ⟨other, value⟩ := first
    by_cases hname : name = other
    · subst hname
      simp [h]
    · have hne : (name == other) = false := beq_false_of_ne hname
      by_cases hknown : other ∈ optionNames
      · simp [hknown, List.lookup_cons, hne, ih]
      · simp [hknown, List.lookup_cons, hne, ih]

/-- The values that count for options come from known pairs and overrides. -/
theorem candidate?_congr {pairs pairs' overrides overrides' : Members}
    (hpairs : known pairs' = known pairs)
    (hoverrides : known (effective overrides') = known (effective overrides)) {name : String}
    (h : name ∈ optionNames) :
    candidate? pairs' overrides' name = candidate? pairs overrides name := by
  rw [candidate?, candidate?, ← lookup_reverse_known _ h, ← lookup_reverse_known pairs' h, hpairs,
    hoverrides, lookup_reverse_known _ h, lookup_reverse_known _ h]

/-! ## Loading -/

/-- The members that a configuration gives, as they are written. Without a file there are none. -/
inductive Gives : Option ConfigFile → Members → Prop where
  | nothing : Gives none []
  | file {file : ConfigFile} {bytes : ByteArray} {text : String} {pairs : Members}
      (hpath : (Path.ofString file.path).hasNull = false) (hbytes : file.bytes = some bytes)
      (htext : decode? bytes = some text) (hobject : Json.SpellsObject text pairs) :
      Gives (some file) pairs

/-- The members of a file that holds an object are the last values that it writes. -/
theorem members_eq_ok_iff {file : ConfigFile} {members : Members} :
    file.members = .ok members ↔ ∃ pairs, Gives (some file) pairs ∧ members = Keyed.ofPairs pairs := by
  constructor
  · intro h
    simp only [ConfigFile.members] at h
    split at h
    · cases h
    · next hpath =>
      split at h
      · cases h
      · next bytes hbytes =>
        split at h
        · cases h
        · next text htext =>
          split at h
          · cases h
          · cases h
          · next hread =>
            obtain rfl := Except.ok.inj h
            obtain ⟨pairs, hobject, heq⟩ := Json.read_eq_ok_obj_iff.mp hread
            exact ⟨pairs, .file (Bool.not_eq_true _ ▸ hpath) hbytes htext hobject, heq⟩
          · cases h
  · intro h
    obtain ⟨pairs, hgives, rfl⟩ := h
    cases hgives with
    | file hpath hbytes htext hobject =>
      have hread := Json.read_eq_ok_obj_iff.mpr ⟨pairs, hobject, rfl⟩
      simp [ConfigFile.members, hpath, hbytes, htext, hread]

/-- A file that holds no object is not reported as options that are wrong. -/
theorem members_ne_invalid (file : ConfigFile) (path : Option String) (problems : List Problem) :
    file.members ≠ .error (.invalid path problems) := by
  intro h
  simp only [ConfigFile.members] at h
  repeat' split at h
  all_goals cases h

/-- A result of loading is decided field by field from the values that count: exactly the options
that are taken from them are loaded, and if some of them fail, exactly the places that fail are
reported, in order. -/
structure DecidedBy (value? : String → Option Json) (path : Option String)
    (result : Except LoadError Options) : Prop where
  ok_iff : ∀ options, result = .ok options ↔ TakenFrom value? options
  exists_ok_iff : (∃ options, result = .ok options) ↔
    ∀ location, ¬RecordFails optionFields value? location
  invalid : (∃ location, RecordFails optionFields value? location) →
    ∃ problems, result = .error (.invalid path problems) ∧
      Lists (RecordFails optionFields value?) problems

/-- What loading makes of checked options. -/
def resultOf (path : Option String) : Checked Options → Except LoadError Options
  | .pass options => .ok options
  | .fail problems => .error (.invalid path problems)

/-- The result of a check that settles what is taken from the values and where they fail. -/
theorem decidedBy_of_settles {value? : String → Option Json} {checked : Checked Options}
    (h : checked.Settles (TakenFrom value?) (RecordFails optionFields value?)) (path : Option String) :
    DecidedBy value? path (resultOf path checked) := by
  cases checked with
  | pass options =>
    have hnone : ∀ location, ¬RecordFails optionFields value? location := fun location hlocation =>
      List.not_mem_nil ((h.lists.mem_iff location).mpr hlocation)
    refine ⟨fun other => ?_, iff_of_true ⟨options, rfl⟩ hnone, fun hfails => ?_⟩
    · rw [← h.pass_iff, resultOf, Except.ok.injEq, Checked.pass.injEq]
    · obtain ⟨location, hlocation⟩ := hfails
      exact absurd hlocation (hnone location)
  | fail problems =>
    -- A check that fails names a place, so that something fails there.
    have hsome : ∃ location, RecordFails optionFields value? location := by
      obtain ⟨first, rest, rfl⟩ := List.exists_cons_of_ne_nil fun hnil => h.sound (hnil ▸ rfl)
      exact ⟨first.location, (h.lists.mem_iff _).mp List.mem_cons_self⟩
    refine ⟨fun options => ?_, iff_of_false (by simp [resultOf]) (not_forall_not.mpr hsome),
      fun _ => ?_⟩
    · rw [← h.pass_iff]
      simp [resultOf]
    · exact ⟨problems, rfl, h.lists⟩

variable {config : Option ConfigFile} {pairs : Members}

/-- What is loaded from a configuration that gives members. -/
theorem Gives.load_eq (h : Gives config pairs) (overrides : Members) :
    load config overrides = resultOf ((config.map ConfigFile.path).bind nonempty?)
      (ofMembers (override (Keyed.ofPairs pairs) overrides)) := by
  cases config with
  | none =>
    cases h
    rfl
  | some file =>
    change (file.members >>= _) = _
    rw [members_eq_ok_iff.mpr ⟨pairs, h, rfl⟩]
    rfl

/-- The members that a configuration holds after the grammar, as they are written. The flag says
whether some integer in it has more digits than are accepted. -/
inductive Holds : Option ConfigFile → Members → Bool → Prop where
  | nothing : Holds none [] false
  | file {file : ConfigFile} {bytes : ByteArray} {text : String} {pairs : Members} {long : Bool}
      (hpath : (Path.ofString file.path).hasNull = false) (hbytes : file.bytes = some bytes)
      (htext : decode? bytes = some text) (hobject : Json.HoldsObject text pairs long) :
      Holds (some file) pairs long

/-- A configuration gives the members that it holds, if no integer in it is too long. -/
theorem gives_iff : Gives config pairs ↔ Holds config pairs false := by
  constructor
  · intro h
    cases h with
    | nothing => exact .nothing
    | file hpath hbytes htext hobject =>
      exact .file hpath hbytes htext (Json.spellsObject_iff.mp hobject)
  · intro h
    cases h with
    | nothing => exact .nothing
    | file hpath hbytes htext hobject =>
      exact .file hpath hbytes htext (Json.spellsObject_iff.mpr hobject)

/-- A configuration with an integer that is too long is not loaded, and this is not reported as an
error of the configuration. -/
theorem Holds.load_eq (h : Holds config pairs true) (overrides : Members) :
    load config overrides = .error .integerTooLong := by
  cases h with
  | @file file bytes text _ _ hpath hbytes htext hobject =>
    have hmembers : file.members = .error .integerTooLong := by
      simp [ConfigFile.members, hpath, hbytes, htext, Json.read_of_long hobject]
    change (file.members >>= _) = _
    rw [hmembers]
    rfl

/-- Only the values that count are loaded. -/
theorem Gives.load_congr (h : Gives config pairs) {config' : Option ConfigFile}
    {pairs' overrides overrides' : Members} (h' : Gives config' pairs')
    (hpath : config'.map ConfigFile.path = config.map ConfigFile.path)
    (hpairs : known pairs' = known pairs)
    (hoverrides : known (effective overrides') = known (effective overrides)) :
    load config' overrides' = load config overrides := by
  have hmembers : ofMembers (override (Keyed.ofPairs pairs') overrides') =
      ofMembers (override (Keyed.ofPairs pairs) overrides) := by
    refine ofMembers_congr fun name hname => ?_
    rw [lookup_override, lookup_override, candidate?_congr hpairs hoverrides hname]
  rw [h.load_eq, h'.load_eq, hmembers, hpath]

/-- A configuration that gives no members is not loaded, and no option is blamed for it. -/
theorem exists_load_eq_error (h : ∀ pairs, ¬Gives config pairs) (overrides : Members) :
    ∃ cause, load config overrides = .error cause ∧
      ∀ path problems, cause ≠ .invalid path problems := by
  cases config with
  | none => exact absurd .nothing (h [])
  | some file =>
    cases hmembers : file.members with
    | ok members =>
      obtain ⟨pairs, hgives, -⟩ := members_eq_ok_iff.mp hmembers
      exact absurd hgives (h pairs)
    | error cause =>
      refine ⟨cause, ?_, fun path problems hcause => ?_⟩
      · change (file.members >>= _) = _
        rw [hmembers]
        rfl
      · exact members_ne_invalid file path problems (hcause ▸ hmembers)

/-- Options are loaded field by field. From a configuration that holds an object, loading gives exactly
the options that are taken from the values that count; it succeeds exactly if none of these values
fails anywhere, and otherwise reports the path of the configuration and exactly the places that fail,
each once and in the order of the options. Null overrides and pairs with other names than those of
options change nothing. A configuration that holds no object is not loaded at all, and neither is one
in which an integer has too many digits, wherever it stands. -/
theorem load_fieldwise (config : Option ConfigFile) (overrides : Members) :
    (∀ pairs, Holds config pairs false →
      DecidedBy (candidate? pairs overrides) ((config.map ConfigFile.path).bind nonempty?)
        (load config overrides) ∧
      ∀ (config' : Option ConfigFile) (pairs' overrides' : Members), Holds config' pairs' false →
        config'.map ConfigFile.path = config.map ConfigFile.path →
        known pairs' = known pairs →
        known (effective overrides') = known (effective overrides) →
        load config' overrides' = load config overrides) ∧
    (∀ pairs, Holds config pairs true → load config overrides = .error .integerTooLong) ∧
    ((∀ pairs long, ¬Holds config pairs long) →
      ∃ cause, load config overrides = .error cause ∧
        ∀ path problems, cause ≠ .invalid path problems) := by
  refine ⟨fun pairs h => ⟨?_, fun _ _ _ h' hpath hpairs hoverrides => ?_⟩,
    fun pairs h => h.load_eq overrides, fun h => ?_⟩
  · have hsettles := settles_ofMembers (override (Keyed.ofPairs pairs) overrides)
    simp only [lookup_override] at hsettles
    rw [(gives_iff.mpr h).load_eq]
    exact decidedBy_of_settles hsettles _
  · exact (gives_iff.mpr h).load_congr (gives_iff.mpr h') hpath hpairs hoverrides
  · exact exists_load_eq_error (fun pairs hgives => h pairs false (gives_iff.mp hgives)) overrides

/-- A configuration that writes the title twice and an option that is unknown. -/
def titleText : String :=
  "\x7b\"title\": 1, \"x\": null, \"title\": \"T\"\x7d"

/-- The members of that configuration. -/
def titlePairs : Members :=
  [("title", .int 1), ("x", .null), ("title", .str "T")]

/-- The text is an object with these members. -/
theorem spellsObject_titleText : Json.SpellsObject titleText titlePairs := by
  have htext : titleText.toList = ['\x7b', '\x22', 't', 'i', 't', 'l', 'e', '\x22', ':', ' ', '1', ',',
      ' ', '\x22', 'x', '\x22', ':', ' ', 'n', 'u', 'l', 'l', ',', ' ', '\x22', 't', 'i', 't', 'l', 'e',
      '\x22', ':', ' ', '\x22', 'T', '\x22', '\x7d'] := by
    decide +kernel
  have hopen : Json.skipBlanks titleText.toList = '\x7b' :: titleText.toList.tail := by
    rw [htext]
    rfl
  have hmembers : Json.SpellsMembers titleText.toList.length
      (Json.skipBlanks titleText.toList.tail) titlePairs [] := by
    rw [htext]
    refine .more (by rfl) (by rfl) (by rfl) (by rfl) (by rfl) ?_
    refine .more (by rfl) (by rfl) (by rfl) (by rfl) (by rfl) ?_
    exact .last (by rfl) (by rfl) (by rfl) (by rfl) (by rfl)
  exact .members hopen hmembers rfl

/-- The title is the last one that is written, and wrong overrides are reported. An override that is
null and one that is unknown change nothing. -/
theorem load_fieldwise_title :
    let file : ConfigFile := { path := "c.json", bytes := some titleText.toUTF8 }
    let overrides : Members := [("strict", .str "YES")]
    let wrong : Members := [("ignore_paths", .arr [.str "a", .int 2]), ("strict", .nan)]
    Holds (some file) titlePairs false ∧
    load (some file) overrides = .ok { title := "T", strict := true } ∧
    load (some file) (("title", .null) :: ("x", .nan) :: overrides) = load (some file) overrides ∧
    ∃ problems, load (some file) wrong = .error (.invalid (some "c.json") problems) ∧
      Lists (RecordFails optionFields (candidate? titlePairs wrong)) problems := by
  intro file overrides wrong
  have hholds : Holds (some file) titlePairs false :=
    gives_iff.mp (.file (by decide +kernel) rfl (by decide +kernel) spellsObject_titleText)
  have hloads := (load_fieldwise (some file) overrides).1 titlePairs hholds
  refine ⟨hholds, ?_, hloads.2 _ titlePairs _ hholds rfl rfl rfl, ?_⟩
  · refine (hloads.1.ok_iff _).mpr ?_
    exact ⟨rfl, rfl, rfl, rfl, rfl, rfl, .str "T", rfl, .word (by decide), rfl⟩
  · refine ((load_fieldwise (some file) wrong).1 titlePairs hholds).1.invalid ⟨[.key "strict"], ?_⟩
    have hfails : Unfit IsTruth .nan [] := ⟨rfl, fun b hb => by cases hb⟩
    exact .field (by simp [optionFields]) rfl hfails

/-- The digits of an integer that is too long. -/
def overlongDigits : List Char :=
  List.replicate (Json.maxDigits + 1) '1'

/-- A configuration that writes this integer under an unknown name, and nothing else. -/
def overlongFile : ConfigFile :=
  { path := "c.json"
    bytes := some (String.ofList
      ('\x7b' :: ('\x22' :: 'x' :: '\x22' :: ':' :: ' ' :: overlongDigits ++ ['\x7d']))).toUTF8 }

/-- The integer is too long. -/
theorem spells_overlongDigits :
    Json.Spells (.value (.int (Json.ofDigits overlongDigits))) overlongDigits true := by
  have hdigits : ∀ c ∈ overlongDigits, c = '1' := fun c hc => List.eq_of_mem_replicate hc
  have hwhole : Json.IsWhole overlongDigits := by
    refine ⟨⟨by simp [overlongDigits], fun c hc => ?_⟩, fun hzero => ?_⟩
    · rw [hdigits c hc]
      decide
    · exact absurd (hdigits _ (List.mem_of_mem_head? hzero)) (by decide)
  have hlong : decide (Json.maxDigits < overlongDigits.length) = true := by
    rw [overlongDigits, List.length_replicate]
    exact decide_eq_true (Nat.lt_succ_self _)
  have hspells := Json.Spells.integer false hwhole
  rwa [hlong] at hspells

/-- The configuration holds an unknown pair only. -/
theorem holds_overlongFile :
    Holds (some overlongFile) [("x", .int (Json.ofDigits overlongDigits))] true := by
  have hblank : Json.Blanks [' '] := by simp [Json.Blanks]
  have hnone : Json.Blanks [] := List.forall_mem_nil _
  have hitem := Json.Spells.item hblank spells_overlongDigits hnone
  rw [List.append_nil] at hitem
  have hmember : Json.Spells (.member "x" (.int (Json.ofDigits overlongDigits)))
      ('\x22' :: 'x' :: '\x22' :: ':' :: ' ' :: overlongDigits) true :=
    .member hnone (.plain (by decide) (by decide) (by decide) .nil) hnone hitem
  refine .file (by decide +kernel) rfl (decode?_toUTF8 ?_) ⟨[], _, [], hnone,
    .members (.lastMember hmember), hnone, String.toList_ofList⟩
  rw [String.toList_ofList]
  simp [overlongDigits]

/-- A configuration that is an empty object gives the defaults. With one that holds an unknown pair
besides nothing is loaded, as the integer in it is too long. -/
theorem load_overlong_unknown :
    load (some { overlongFile with bytes := some "\x7b\x7d".toUTF8 }) [] = .ok {} ∧
      (∃ pairs, Holds (some overlongFile) pairs true ∧ known pairs = []) ∧
      load (some overlongFile) [] = .error .integerTooLong := by
  refine ⟨?_, ⟨_, holds_overlongFile, rfl⟩, holds_overlongFile.load_eq []⟩
  decide +kernel

end Options

end DocAtlas
