import DocAtlas.Proofs.Atlas.Declarations
import DocAtlas.Proofs.Atlas.LostReferences
import DocAtlas.Proofs.Command.Delivery
import DocAtlas.Proofs.Identity.Link

/-!
# How runs end

A run ends with 1 before it writes anything, so it leaves the file system as it was. A run that ends
with 0 has delivered its documents. What a review finds does not depend on the identities, so a
strict run ends with 1 exactly if a run that is not strict warns, and if there is nothing to warn
about both are the same run.

The documents of a run go into the output directory if their name holds no slash. A name with
slashes can lead out of it.
-/

namespace DocAtlas

/-! ## Reviews do not read identities -/

/-- What a review says about comments, without the edges between them. -/
theorem Atlas.messages_link (comments : List Comment) :
    (link comments).messages =
      comments.flatMap fun comment => (link comments).messagesOf (Entry.ofComment comment) := by
  rw [← List.flatMap_map]
  exact flatMap_connect (fun _ _ _ => rfl) _ _ _

/-- Renaming comments does not change what a review says. -/
theorem Atlas.messages_link_map_mapId (f : String → String) (comments : List Comment) :
    (link (comments.map (Comment.mapId f))).messages = (link comments).messages := by
  have hnamespaces : (link (comments.map (Comment.mapId f))).namespaces.map
      Declaration.description = (link comments).namespaces.map Declaration.description := by
    rw [(firstDeclarations_namespaces _).names_eq, (firstDeclarations_namespaces _).names_eq,
      List.flatMap_map]
    rfl
  have hmodules : (link (comments.map (Comment.mapId f))).modules.map
      Declaration.description = (link comments).modules.map Declaration.description := by
    rw [(firstDeclarations_modules _).names_eq, (firstDeclarations_modules _).names_eq,
      List.flatMap_map]
    rfl
  have hrefs : (link (comments.map (Comment.mapId f))).refFinding? =
      (link comments).refFinding? := by
    funext ref
    rw [refFinding?, refFinding?, hnamespaces, hmodules]
  rw [messages_link, messages_link, List.flatMap_map]
  refine List.flatMap_congr fun comment _ => ?_
  rw [Entry.ofComment_mapId, messagesOf, messagesOf, findingsOf, findingsOf, hrefs]
  rfl

/-- Extracting with renamed identities renames the comments. -/
theorem Comment.extract_map_mapId (f : String → String) (supply : Nat → String) (style : Style)
    (sources : List SourceFile) :
    (extract supply style sources).map (mapId f) = extract (f ∘ supply) style sources := by
  apply List.ext_getElem?
  intro index
  rw [List.getElem?_map, extract, extract, List.getElem?_mapIdx, List.getElem?_mapIdx,
    Option.map_map]
  rfl

/-- What a review says about sources does not depend on the supply of identities. -/
theorem Atlas.messages_link_extract (first second : Nat → String) (style : Comment.Style)
    (sources : List SourceFile) :
    (link (Comment.extract first style sources)).messages =
      (link (Comment.extract second style sources)).messages := by
  have hblank (supply : Nat → String) : (link (Comment.extract supply style sources)).messages =
      (link (Comment.extract (fun _ => "") style sources)).messages := by
    rw [← messages_link_map_mapId fun _ => "", Comment.extract_map_mapId]
    rfl
  rw [hblank first, hblank second]

/-! ## What a run can do -/

namespace Command

/-- The options that a command line gives, nothing if they cannot be loaded. -/
def options? (fs : FileSystem) (argv : List String) : Option Options :=
  match Arguments.ofStrings argv with
  | .error _ => none
  | .ok arguments =>
    match arguments.config with
    | none => (Options.load none arguments.overrides).toOption
    | some (.text path) => (Options.load (some (configFile fs path)) arguments.overrides).toOption
    | some .nothing => none

variable {fs after : FileSystem} {supply : Supply} {options : Options} {code : Nat}
  {stdout stderr : String}

/-- A run from a configuration file is a run with the options that are loaded. -/
theorem runFrom_eq_runWith {arguments : Arguments} (config : Option String)
    (h : (Options.load (config.map (configFile fs)) arguments.overrides).toOption = some options)
    (supply : Supply) : runFrom supply fs arguments config = runWith supply fs options := by
  rw [runFrom]
  cases hload : Options.load (config.map (configFile fs)) arguments.overrides with
  | error cause => simp [hload, Except.toOption] at h
  | ok loaded =>
    obtain rfl : loaded = options := by simpa [hload, Except.toOption] using h
    rfl

/-- A run from a configuration file ends because the options cannot be loaded, which changes
nothing, or they are loaded. -/
theorem exists_options_of_runFrom_eq_finished {arguments : Arguments} (config : Option String)
    (h : runFrom supply fs arguments config = .finished code stdout stderr after) :
    (code = 1 ∧ after = fs) ∨ ∃ options,
      (Options.load (config.map (configFile fs)) arguments.overrides).toOption = some options := by
  rw [runFrom] at h
  cases hload : Options.load (config.map (configFile fs)) arguments.overrides with
  | ok options => exact Or.inr ⟨options, rfl⟩
  | error cause =>
    rw [hload] at h
    dsimp only at h
    split at h
    · cases h
      exact Or.inl ⟨rfl, rfl⟩
    · cases h

/-- A run with options that can be loaded is a run with those options. -/
theorem run_eq_runWith {argv : List String} (h : options? fs argv = some options)
    (supply : Supply) : run supply fs argv = runWith supply fs options := by
  rw [run]
  rw [options?] at h
  cases harguments : Arguments.ofStrings argv with
  | error exit => simp [harguments] at h
  | ok arguments =>
    cases hconfig : arguments.config with
    | none =>
      simp only [harguments, hconfig] at h ⊢
      exact runFrom_eq_runWith none h supply
    | some given =>
      cases given with
      | text path =>
        simp only [harguments, hconfig] at h ⊢
        exact runFrom_eq_runWith (some path) h supply
      | nothing => simp [harguments, hconfig] at h

/-- A run ends because its options cannot be loaded, which changes nothing, or they are loaded. -/
theorem exists_options_of_run_eq_finished {argv : List String}
    (h : run supply fs argv = .finished code stdout stderr after) :
    (code = 1 ∧ after = fs) ∨ ∃ options, options? fs argv = some options := by
  rw [run] at h
  rw [options?]
  cases harguments : Arguments.ofStrings argv with
  | error exit => simp [harguments] at h
  | ok arguments =>
    cases hconfig : arguments.config with
    | none =>
      simp only [harguments, hconfig] at h ⊢
      exact exists_options_of_runFrom_eq_finished none h
    | some given =>
      cases given with
      | text path =>
        simp only [harguments, hconfig] at h ⊢
        exact exists_options_of_runFrom_eq_finished (some path) h
      | nothing => simp [harguments, hconfig] at h

/-- A delivery that ends has delivered the documents. -/
theorem deliver_eq_finished {build : Build} {printed : String}
    (h : deliver options fs build printed = .finished code stdout stderr after) :
    code = 0 ∧ stderr = warnings build ∧ ∃ out, Route.ofLoose? options.outputPath = some out ∧
      Delivered fs after out (build.documents options) := by
  unfold deliver at h
  split at h
  · cases h
  next out hout =>
  dsimp only at h
  split at h
  · cases h
  next written hwritten =>
  split at h
  · cases h
  cases h
  exact ⟨rfl, rfl, out, hout, writeOutput_eq_ok hwritten⟩

/-- A run with options ends without a change, or its target was scanned, the review of the build
gave no errors and the documents were delivered. -/
theorem runWith_eq_finished (h : runWith supply fs options = .finished code stdout stderr after) :
    (code = 1 ∧ after = fs) ∨
      ∃ target sources out, options.targetPath.toString? = some target ∧
        fs.scan target options.fragments options.extensions = .ok sources ∧
        Route.ofLoose? options.outputPath = some out ∧
        let build := Build.ofSources supply options.strict sources
        code = 0 ∧ build.review.errors = [] ∧ stderr = warnings build ∧
          Delivered fs after out (build.documents options) := by
  rw [runWith] at h
  split at h
  · next target htarget =>
    rw [runOn] at h
    split at h
    · cases h
    · cases h
      exact Or.inl ⟨rfl, rfl⟩
    · next sources hsources =>
      rw [finish] at h
      split at h
      · next herrors =>
        obtain ⟨rfl, rfl, out, hout, hdelivered⟩ := deliver_eq_finished h
        exact Or.inr ⟨target, sources, out, htarget, hsources, hout, rfl,
          List.isEmpty_iff.mp herrors, rfl, hdelivered⟩
      · cases h
        exact Or.inl ⟨rfl, rfl⟩
  · cases h

/-- A run ends without a change, or its options were loaded, its target was scanned, the review of
the build gave no errors and the documents were delivered. -/
theorem run_eq_finished {argv : List String}
    (h : run supply fs argv = .finished code stdout stderr after) :
    (code = 1 ∧ after = fs) ∨
      ∃ options target sources out, options? fs argv = some options ∧
        options.targetPath.toString? = some target ∧
        fs.scan target options.fragments options.extensions = .ok sources ∧
        Route.ofLoose? options.outputPath = some out ∧
        let build := Build.ofSources supply options.strict sources
        code = 0 ∧ build.review.errors = [] ∧ stderr = warnings build ∧
          Delivered fs after out (build.documents options) := by
  rcases exists_options_of_run_eq_finished h with hunchanged | ⟨options, hoptions⟩
  · exact Or.inl hunchanged
  · rw [run_eq_runWith hoptions] at h
    refine (runWith_eq_finished h).imp_right fun hended => ?_
    obtain ⟨target, sources, out, hended⟩ := hended
    exact ⟨options, target, sources, out, hoptions, hended⟩

end Command

/-! ## Strict runs -/

/-- A strict build without findings is the build that is not strict. -/
theorem Build.ofSources_strict {supply : Supply} {sources : List SourceFile}
    (h : (Atlas.link (Comment.extract supply.comment .doc sources)).messages = []) :
    ofSources supply true sources = ofSources supply false sources := by
  rw [ofSources, ofSources, Atlas.review, Atlas.review, h]
  rfl

/-- The exit code of a run that comes to its end. -/
def Outcome.exitCode? : Outcome → Option Nat
  | usage _ => none
  | finished code _ _ _ => some code
  | broken _ _ => none

/-- The file system after a run that comes to its end. -/
def Outcome.after? : Outcome → Option FileSystem
  | usage _ => none
  | finished _ _ _ after => some after
  | broken _ _ => none

/-- A run with an exit code has come to its end. -/
theorem Outcome.exists_finished {outcome : Outcome} {code : Nat}
    (h : outcome.exitCode? = some code) :
    ∃ stdout stderr after, outcome = .finished code stdout stderr after := by
  cases outcome with
  | usage exit => cases h
  | finished found stdout stderr after => exact ⟨stdout, stderr, after, by rw [Option.some.inj h]⟩
  | broken cause stdout => cases h

namespace Command

variable {fs : FileSystem} {options : Options} {target : String} {sources : List SourceFile}

/-- A run whose target can be scanned finishes a build. -/
theorem runWith_eq_finish (options : Options) (htarget : options.targetPath.toString? = some target)
    (hsources : fs.scan target options.fragments options.extensions = .ok sources)
    (supply : Supply) : runWith supply fs options =
      finish options target fs (Build.ofSources supply options.strict sources) := by
  rw [runWith, htarget]
  dsimp only
  rw [runOn, hsources]

/-- A strict run in which the review finds nothing is the run that is not strict. -/
theorem runWith_strict_of_messages_eq_nil (htarget : options.targetPath.toString? = some target)
    (hsources : fs.scan target options.fragments options.extensions = .ok sources)
    {supply : Supply}
    (h : (Atlas.link (Comment.extract supply.comment .doc sources)).messages = []) :
    runWith supply fs { options with strict := true } =
      runWith supply fs { options with strict := false } := by
  rw [runWith_eq_finish { options with strict := true } htarget hsources,
    runWith_eq_finish { options with strict := false } htarget hsources, Build.ofSources_strict h]
  rfl

/-- A run that is not strict and whose target can be scanned does not end with 1. -/
theorem exitCode?_runWith_lenient (htarget : options.targetPath.toString? = some target)
    (hsources : fs.scan target options.fragments options.extensions = .ok sources)
    (supply : Supply) :
    (runWith supply fs { options with strict := false }).exitCode? ≠ some 1 := by
  intro h
  rw [runWith_eq_finish { options with strict := false } htarget hsources, finish,
    if_pos (by rfl)] at h
  obtain ⟨stdout, stderr, after, hdeliver⟩ := Outcome.exists_finished h
  exact absurd (deliver_eq_finished hdeliver).1 (by decide)

/-- A strict run whose target can be scanned ends with 1 exactly if the review finds something. -/
theorem exitCode?_runWith_strict_iff (htarget : options.targetPath.toString? = some target)
    (hsources : fs.scan target options.fragments options.extensions = .ok sources)
    (supply : Supply) :
    (runWith supply fs { options with strict := true }).exitCode? = some 1 ↔
      (Atlas.link (Comment.extract supply.comment .doc sources)).messages ≠ [] := by
  constructor
  · intro h hnone
    rw [runWith_strict_of_messages_eq_nil htarget hsources hnone] at h
    exact exitCode?_runWith_lenient htarget hsources supply h
  · intro h
    have herrors : ¬(Build.ofSources supply true sources).review.errors.isEmpty = true := by
      rw [List.isEmpty_iff]
      exact h
    rw [runWith_eq_finish { options with strict := true } htarget hsources, finish, if_neg herrors]
    rfl

/-- Strict runs: if a run that is not strict writes its documents, then it prints the findings of
the review as warnings, and a strict run with the same options ends with 1 exactly if there are
some. Two such runs that both end with 0 do the same with the same identities.

All runs: one that ends with 1 changes nothing. One that ends with 0 makes the output directory,
with the missing directories on the way to it, and writes the documents of the wanted forms, all of
which go into the output directory if their name holds no slash; it changes nothing else. -/
theorem run_outcomes (fs : FileSystem) (argv : List String) :
    (∀ (strictArgv : List String) (options : Options) (supply : Supply) (stdout stderr : String)
        (after : FileSystem),
      options? fs argv = some { options with strict := false } →
      options? fs strictArgv = some { options with strict := true } →
      run supply fs argv = .finished 0 stdout stderr after →
      ∃ warnings : List String, stderr = lines (warnings.map ("  ⚠ " ++ ·)) ∧
        ∀ supply : Supply,
          ((run supply fs strictArgv).exitCode? = some 1 ↔ warnings ≠ []) ∧
          ((run supply fs strictArgv).exitCode? = some 0 →
            run supply fs strictArgv = run supply fs argv)) ∧
    (∀ (supply : Supply) (stdout stderr : String) (after : FileSystem),
      run supply fs argv = .finished 1 stdout stderr after → after = fs) ∧
    (∀ (supply : Supply) (stdout stderr : String) (after : FileSystem),
      run supply fs argv = .finished 0 stdout stderr after →
      ∃ (options : Options) (target : String) (sources : List SourceFile) (out : Route),
        options? fs argv = some options ∧ options.targetPath.toString? = some target ∧
        fs.scan target options.fragments options.extensions = .ok sources ∧
        Route.ofLoose? options.outputPath = some out ∧
        let documents := (Build.ofSources supply options.strict sources).documents options
        (∀ name, name ∈ documents.map Prod.fst ↔
          ∃ format ∈ options.formats, name ∈ format.documentNames options.outputName) ∧
        Delivered fs after out documents ∧
        ('/' ∉ options.outputName.toList → ∀ name ∈ documents.map Prod.fst,
          documentPlace fs out name = fs.place out ++ [.text name])) := by
  refine ⟨?_, ?_, ?_⟩
  · intro strictArgv options supply stdout stderr after hoptions hstrict hrun
    rw [run_eq_runWith hoptions] at hrun
    obtain ⟨hcode, _⟩ | ⟨target, sources, _, htarget, hsources, _, _, _, hstderr, _⟩ :=
      runWith_eq_finished hrun
    · exact absurd hcode (by decide)
    refine ⟨_, hstderr, fun other => ?_⟩
    -- The identities of the two runs may differ, but the review says the same.
    have hsame := Atlas.messages_link_extract other.comment supply.comment .doc sources
    rw [run_eq_runWith hoptions, run_eq_runWith hstrict]
    have hone := exitCode?_runWith_strict_iff htarget hsources other
    rw [hsame] at hone
    refine ⟨hone, fun hzero => runWith_strict_of_messages_eq_nil htarget hsources ?_⟩
    rw [hsame]
    by_contra hsome
    exact absurd (hzero.symm.trans (hone.mpr hsome)) (by decide)
  · intro supply stdout stderr after hrun
    obtain ⟨_, hafter⟩ | ⟨_, _, _, _, _, _, _, _, hcode, _⟩ := run_eq_finished hrun
    · exact hafter
    · exact absurd hcode (by decide)
  · intro supply stdout stderr after hrun
    obtain ⟨hcode, _⟩ | ⟨options, target, sources, out, hoptions, htarget, hsources, hout, _, _, _,
      hdelivered⟩ := run_eq_finished hrun
    · exact absurd hcode (by decide)
    have hnames := (Build.ofSources supply options.strict sources).mem_map_fst_documents_iff options
    refine ⟨options, target, sources, out, hoptions, htarget, hsources, hout, hnames, hdelivered,
      fun hslash name hname => ?_⟩
    obtain ⟨format, _, hdocument⟩ := (hnames name).mp hname
    obtain ⟨hlength, hsegment⟩ := Format.of_mem_documentNames hdocument
    exact documentPlace_of_notMem fs out (hsegment hslash) hlength

/-- Two sources, one of which declares a namespace that the other one refers to. -/
def library : FileSystem :=
  .around (.dir [(.text "src", .dir
    [(.text "a.ts", .file "/**\n * @namespace {Lib}\n * @summary Lib.\n */".toUTF8 0),
     (.text "b.ts", .file "/**\n * @memberof namespace:Lib\n * @type {fn} b\n */".toUTF8 0)])])

/-- Without the source that declares the namespace a run warns, and a strict run ends with 1 and
leaves everything as it was. -/
theorem run_outcomes_library :
    let argv := ["src/b.ts", "--format", "md"]
    let supply := Identity.supply 0
    (∃ warnings stdout after, warnings ≠ [] ∧ run supply library argv =
      .finished 0 stdout (lines (warnings.map ("  ⚠ " ++ ·))) after) ∧
    ∃ stdout stderr, run supply library (argv ++ ["--strict"]) =
      .finished 1 stdout stderr library := by
  intro argv supply
  have hone : (run supply library (argv ++ ["--strict"])).exitCode? = some 1 := by decide +kernel
  have hzero : (run supply library argv).exitCode? = some 0 := by decide +kernel
  have hlenient : options? library argv =
      (options? library argv).map ({ · with strict := false }) := by decide +kernel
  have hstrict : options? library (argv ++ ["--strict"]) =
      (options? library argv).map ({ · with strict := true }) := by decide +kernel
  obtain ⟨options, hoptions⟩ : ∃ options, options? library argv = some options :=
    Option.isSome_iff_exists.mp (by decide +kernel)
  rw [hoptions] at hlenient hstrict
  obtain ⟨stdout, stderr, after, hrun⟩ := Outcome.exists_finished hzero
  obtain ⟨warnings, rfl, hall⟩ := (run_outcomes library argv).1 (argv ++ ["--strict"]) options
    supply stdout stderr after (hoptions.trans hlenient) hstrict hrun
  refine ⟨⟨warnings, stdout, after, (hall supply).1.mp hone, hrun⟩, ?_⟩
  obtain ⟨stdout, stderr, after, hrun⟩ := Outcome.exists_finished hone
  obtain rfl := (run_outcomes library (argv ++ ["--strict"])).2.1 supply stdout stderr after hrun
  exact ⟨stdout, stderr, hrun⟩

/-- The name of the documents may lead out of the output directory: a run ends with 0 and leaves a
new file beside that directory. -/
theorem run_writes_outside :
    let argv := ["src", "--name", "../up", "--format", "md"]
    let out : Route := { root := "", names := [.text ".dist"] }
    let location := library.here ++ [.text "up.md"]
    ∃ options stdout stderr after, options? library argv = some options ∧
      Route.ofLoose? options.outputPath = some out ∧
      run (Identity.supply 0) library argv = .finished 0 stdout stderr after ∧
      library.tree.glance? location = none ∧ (after.tree.glance? location).isSome ∧
      location ∉ library.placesTo out ∧ ¬library.place out <+: location := by
  intro argv out location
  have hout : (options? library argv).bind (fun options => Route.ofLoose? options.outputPath) =
      some out := by decide +kernel
  have hseen : ((run (Identity.supply 0) library argv).after?.bind
      (·.tree.glance? location)).isSome := by decide +kernel
  have hzero : (run (Identity.supply 0) library argv).exitCode? = some 0 := by decide +kernel
  obtain ⟨options, hoptions, hout⟩ := Option.bind_eq_some_iff.mp hout
  obtain ⟨stdout, stderr, after, hrun⟩ := Outcome.exists_finished hzero
  rw [hrun] at hseen
  exact ⟨options, stdout, stderr, after, hoptions, hout, hrun, rfl, hseen, by decide, by decide⟩

end Command

end DocAtlas
