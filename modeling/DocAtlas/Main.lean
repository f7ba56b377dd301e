import DocAtlas.Command

/-!
# Program

The program on the real file system. It reads the configuration file and the target, prints what
the command reports and writes the documents.
-/

namespace DocAtlas.Program

/-- The entry of the file system that a path names. -/
def entryAt (path : Path) : IO.FS.DirEntry :=
  { root := ".", fileName := path.toString }

/-- The bytes of a file, nothing if they cannot be read. -/
def readBytes? (entry : IO.FS.DirEntry) : IO (Option ByteArray) := do
  try
    return some (← IO.FS.readBinFile entry.path)
  catch _ => return none

/-- What stands at an entry of the file system. Of the files below a directory only those are
taken whose location is wanted. -/
partial def snapshot (isWanted : List String → Bool) (location : List String)
    (entry : IO.FS.DirEntry) : IO Tree := do
  if ← entry.path.isDir then
    let mut children := #[]
    for child in ← entry.path.readDir do
      let below := location ++ [child.fileName]
      if (← child.path.isDir) || isWanted below then
        children := children.push (Name.text child.fileName, ← snapshot isWanted below child)
    return .dir children.toList
  else
    let metadata ← entry.path.metadata
    return .file ((← readBytes? entry).getD (.mk #[0xff])) metadata.modified.sec

/-- The source files of the target, nothing if it does not exist. -/
def sources? (options : Options) (path : Path) : IO (Option (List SourceFile)) := do
  let entry := entryAt path
  let isWanted (location : List String) : Bool :=
    FoundFile.isWanted { location, bytes := .empty, modified := 0 } options.fragments
      options.extensions
  if ← entry.path.pathExists then
    return some
      (sourcesOf path options.fragments options.extensions (← snapshot isWanted [] entry))
  else return none

/-- Report a text that has no encoding. -/
def reportUnencodable : IO UInt32 := do
  IO.eprintln (Command.errorLine "Half of a surrogate pair cannot be written")
  return 1

/-- Write documents into the output directory. -/
def writeDocuments (out : Path) (documents : Documents) : IO UInt32 := do
  IO.FS.createDirAll (entryAt out).path
  for (name, text) in documents do
    match text with
    | none => return (← reportUnencodable)
    | some text => IO.FS.writeFile (entryAt (Command.documentPath out name)).path text
  IO.print (Command.closing (documents.map fun (name, _) => Command.documentPath out name))
  return 0

/-- A run on a target with given options. -/
def runOn (options : Options) (target : String) : IO UInt32 := do
  let path := Path.ofString target
  IO.print (Command.opening target)
  match ← sources? options path with
  | none =>
    IO.eprintln (Command.errorLine (ScanError.missing path.toString).message)
    return 1
  | some sources =>
    let high ← IO.rand 0 0x3fffffffffffffff
    let low ← IO.rand 0 0x3fffffffffffffff
    let supply := Identity.supply (high <<< 64 + low)
    let build := Build.ofSources supply options.strict sources
    IO.print (Command.summary build)
    IO.eprint (Command.warnings build)
    if build.review.errors.isEmpty then
      IO.print (Command.coverageLines build)
      match options.outputPath.toString? with
      | none => reportUnencodable
      | some output => writeDocuments (Path.ofString output) (build.documents options)
    else
      IO.print (Command.errors build)
      return 1

/-- A run with given options. -/
def runWith (options : Options) : IO UInt32 :=
  match options.targetPath.toString? with
  | some target => runOn options target
  | none => reportUnencodable

/-- The configuration file at a path. -/
def configFile (path : String) : IO ConfigFile := do
  return { path, bytes := ← readBytes? (entryAt (Path.ofString path)) }

/-- A run with a given configuration file. -/
def runFrom (arguments : Arguments) (config : Option ConfigFile) : IO UInt32 :=
  match Options.load config arguments.overrides with
  | .ok options => runWith options
  | .error cause => do
    IO.eprintln (Command.errorLine cause.message)
    return 1

/-- A run with a given command line. -/
def run (argv : List String) : IO UInt32 := do
  match Arguments.ofStrings argv with
  | .error .shown =>
    IO.print Arguments.usage
    return 0
  | .error .wrong =>
    IO.eprint Arguments.usage
    return 2
  | .ok arguments =>
    match arguments.config with
    | none => runFrom arguments none
    | some (.text path) => runFrom arguments (some (← configFile path))
    | some .nothing =>
      IO.eprintln (Command.errorLine "Config file is not named")
      return 1

end DocAtlas.Program

/-- Generate documentation from the comments of a source tree. -/
def main (argv : List String) : IO UInt32 :=
  DocAtlas.Program.run argv
