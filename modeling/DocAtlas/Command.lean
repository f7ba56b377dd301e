import DocAtlas.Arguments
import DocAtlas.Build
import DocAtlas.Options.Load
import DocAtlas.Scan

/-!
# Command

A run of the command: it reads the command line, loads the options, builds the documentation and
writes the documents. Here the file system is a value that is handed in and given back, so that a
run is a function.
-/

namespace DocAtlas

open DocAtlas.Text

/-- Why a run breaks off. The configuration file may be asked for but not named, and a text has no
encoding if half of a surrogate pair stands alone in it. -/
inductive Failure where
  | unnamedConfig
  | load (cause : LoadError)
  | target
  | output (cause : PathError)
  | unencodable
deriving DecidableEq

/-- How a run ends: with the usage, with an exit code, its output and the file system after it, or
broken off after some output. -/
inductive Outcome where
  | usage (exit : UsageExit)
  | finished (code : Nat) (stdout stderr : String) (fs : FileSystem)
  | broken (cause : Failure) (stdout : String)

namespace Command

/-- Lines of output. -/
def lines (texts : List String) : String :=
  String.join (texts.map (· ++ "\n"))

/-- The first line of a run. -/
def opening (target : String) : String :=
  lines ["Extracting docs from " ++ target ++ "..."]

/-- The line of an error. -/
def errorLine (message : String) : String :=
  "  ✗ " ++ message

/-- What a build found. -/
def summary (build : Build) : String :=
  lines
    ["  ✓ " ++ build.sources.length.repr ++ " files, " ++ build.comments.length.repr ++
      " comment blocks",
     "  ✓ " ++ build.atlas.namespaces.length.repr ++ " namespaces, " ++
      build.atlas.modules.length.repr ++ " modules, " ++ build.atlas.files.length.repr ++
      " files, " ++ build.forest.length.repr ++ " root items"]

/-- The warnings of a build. -/
def warnings (build : Build) : String :=
  lines (build.review.warnings.map ("  ⚠ " ++ ·))

/-- The errors of a build. -/
def errors (build : Build) : String :=
  lines ("" :: "Validation errors:" :: build.review.errors.map errorLine)

/-- How much is documented, and the heading of what is written. -/
def coverageLines (build : Build) : String :=
  lines
    ["", "Coverage: documented " ++ build.coverage.documented.toBinary.toPercent ++ ", linked " ++
      build.coverage.linked.toBinary.toPercent,
     "", "Generated:"]

/-- The last lines of a run. -/
def closing (paths : List Path) : String :=
  lines (paths.map (fun path => "  " ++ path.toString) ++ ["", "Done!"])

/-- The path of a document in the output directory. -/
def documentPath (out : Path) (name : String) : Path :=
  out.join (Path.ofString name)

/-- The path of a document as it is printed, nothing if it cannot be printed. A document whose name
has a root of its own does not depend on the output directory. -/
def printedPath? (out : LooseString) (name : String) : Option Path :=
  if (Path.ofString name).root = "" then
    out.toString?.map fun out => documentPath (Path.ofString out) name
  else some (Path.ofString name)

/-- Write a document. Its file is opened before its text is encoded. -/
def writeDocument (fs : FileSystem) (route : Route) (text : Option String) :
    Except Failure FileSystem :=
  match fs.writeFile route (text.getD "").toUTF8, text with
  | .error cause, _ => .error (.output cause)
  | .ok _, none => .error .unencodable
  | .ok fs, some _ => .ok fs

/-- Write documents one after the other. -/
def writeAll (out : Route) (fs : FileSystem) : Documents → Except Failure FileSystem
  | [] => .ok fs
  | (name, text) :: rest => do
    let fs ← writeDocument fs (out.join (Path.ofString name).route) text
    writeAll out fs rest

/-- Make the output directory and write the documents into it. -/
def writeOutput (out : Route) (fs : FileSystem) (documents : Documents) :
    Except Failure FileSystem := do
  let fs ← (fs.ensureDirs out.root out.names.reverse).mapError .output
  writeAll out fs documents

/-- Write the documents of a build and report them, after what was printed already. -/
def deliver (options : Options) (fs : FileSystem) (build : Build) (stdout : String) : Outcome :=
  match Route.ofLoose? options.outputPath with
  | none => .broken .unencodable stdout
  | some out =>
    let documents := build.documents options
    match writeOutput out fs documents with
    | .error cause => .broken cause stdout
    | .ok fs =>
      match documents.mapM fun (name, _) => printedPath? options.outputPath name with
      | none => .broken .unencodable stdout
      | some paths => .finished 0 (stdout ++ closing paths) (warnings build) fs

/-- Finish a run: report, and write the documents unless there are errors. -/
def finish (options : Options) (target : String) (fs : FileSystem) (build : Build) : Outcome :=
  let stdout := opening target ++ summary build
  if build.review.errors.isEmpty then deliver options fs build (stdout ++ coverageLines build)
  else .finished 1 (stdout ++ errors build) (warnings build) fs

/-- A run on a target with given options. -/
def runOn (supply : Supply) (fs : FileSystem) (options : Options) (target : String) : Outcome :=
  match fs.scan target options.fragments options.extensions with
  | .error .unusable => .broken .target (opening target)
  | .error cause => .finished 1 (opening target) (lines [errorLine cause.message]) fs
  | .ok sources => finish options target fs (Build.ofSources supply options.strict sources)

/-- A run with given options. -/
def runWith (supply : Supply) (fs : FileSystem) (options : Options) : Outcome :=
  match options.targetPath.toString? with
  | some target => runOn supply fs options target
  | none => .broken .unencodable ""

/-- The configuration file that a path names. -/
def configFile (fs : FileSystem) (path : String) : ConfigFile :=
  { path
    bytes :=
      match fs.find (Path.ofString path).route with
      | .ok (.file bytes _) => some bytes
      | _ => none }

/-- A run with a given configuration file. -/
def runFrom (supply : Supply) (fs : FileSystem) (arguments : Arguments) (config : Option String) :
    Outcome :=
  match Options.load (config.map (configFile fs)) arguments.overrides with
  | .ok options => runWith supply fs options
  | .error cause =>
    if cause.isReported then .finished 1 "" (lines [errorLine cause.message]) fs
    else .broken (.load cause) ""

/-- A run of the command. -/
def run (supply : Supply) (fs : FileSystem) (argv : List String) : Outcome :=
  match Arguments.ofStrings argv with
  | .error exit => .usage exit
  | .ok arguments =>
    match arguments.config with
    | none => runFrom supply fs arguments none
    | some (.text path) => runFrom supply fs arguments (some path)
    | some .nothing => .broken .unnamedConfig ""

end Command

end DocAtlas
