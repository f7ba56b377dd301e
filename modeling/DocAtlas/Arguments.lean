import DocAtlas.Options.Check
import DocAtlas.Text.Digit
import DocAtlas.Text.Search

/-!
# Command line

The command line names a target and options. A long option may be cut as long as only one option
begins that way, and its value may follow in the next argument or after an equals sign. After `--`
every argument is a plain value. A value that stands alone must not look like an option. The mark
`--` is never a value of an option: attached to one it leaves the option without a value.
-/

namespace DocAtlas

open DocAtlas.Text

/-- An option of the command line. With `ignore` fragments of paths are skipped, with `ext`
extensions of files are given, and with `strict` findings stop the run. -/
inductive Flag where
  | help
  | config
  | out
  | name
  | format
  | ignore
  | ext
  | title
  | logLevel
  | strict
deriving DecidableEq

/-- What an option is given: a value, or nothing but the mark that ends the options. -/
inductive Given where
  | text (value : String)
  | nothing
deriving DecidableEq

namespace Given

/-- What is given by a text that is attached to an option. -/
def ofAttached (s : String) : Given :=
  if s = "--" then nothing else text s

/-- What is given as an override. Without a value it is an empty list, which no option takes. -/
def toJson : Given → Json
  | text value => .str value
  | nothing => .arr []

end Given

namespace Flag

/-- The spellings of the options. -/
def spellings : List (String × Flag) :=
  [("-h", help), ("--help", help), ("--config", config), ("--out", out), ("--name", name),
   ("--format", format), ("--ignore", ignore), ("--ext", ext), ("--title", title),
   ("--log-level", logLevel), ("--strict", strict)]

/-- Does the option take a value? -/
def takesValue : Flag → Bool
  | help | strict => false
  | _ => true

/-- May the option have the value? Only values are judged. -/
def admits (flag : Flag) (given : Given) : Bool :=
  match flag, given with
  | format, .text value => value ∈ ["json", "md", "html"]
  | logLevel, .text value => value ∈ ["debug", "info", "warning", "error", "critical"]
  | _, _ => true

end Flag

/-- An argument of the command line, seen by itself. After a separator everything is a value, an
option may have a value attached by an equals sign, and a cluster is the one-letter option with
letters attached to it. What looks like an option but is none is unknown. -/
inductive Argument where
  | value (text : String)
  | separator
  | option (flag : Flag) (attached : Option String)
  | cluster (letters : List Char)
  | unknown

/-- How the program ends when it does not run: after showing its usage, or on bad usage. -/
inductive UsageExit where
  | shown
  | wrong
deriving DecidableEq

/-- The exit code of a run that shows its usage. -/
def UsageExit.code : UsageExit → Nat
  | shown => 0
  | wrong => 2

namespace Argument

/-- Does a text look like a negative number: a dash and digits with at most one point, which a
digit follows? One newline may stand at the end. -/
def isNegativeNumber (s : List Char) : Bool :=
  match s with
  | '-' :: rest =>
    let rest := if rest.getLast? = some '\n' then rest.dropLast else rest
    let tail := rest.dropWhile isDecimalDigit
    match tail with
    | [] => !rest.isEmpty
    | '.' :: decimals => !decimals.isEmpty && decimals.all isDecimalDigit
    | _ => false
  | _ => false

/-- Options that begin with the given text. -/
def completions (s : String) : List Flag :=
  (Flag.spellings.filter fun (spelling, _) => s.toList.isPrefixOf spelling.toList).map Prod.snd

/-- An argument that begins with two dashes and is no option as it stands. -/
def ofLong (s : String) : Except UsageExit Argument :=
  let (stem, attached) :=
    match cut? ['='] s.toList with
    | some (stem, rest) => (String.ofList stem, some (String.ofList rest))
    | none => (s, none)
  match completions stem with
  | [flag] => .ok (.option flag attached)
  | [] => if s.toList.contains ' ' then .ok (.value s) else .ok .unknown
  | _ => .error .wrong

/-- An argument that begins with one dash and is no option as it stands. -/
def ofShort (s : String) : Argument :=
  match s.toList with
  | '-' :: 'h' :: letters => .cluster letters
  | cs =>
    if isNegativeNumber cs || cs.contains ' ' then .value s else .unknown

/-- What an argument is, seen by itself. -/
def ofString (s : String) : Except UsageExit Argument :=
  match s.toList with
  | '-' :: second :: _ =>
    match Flag.spellings.lookup s with
    | some flag => .ok (.option flag none)
    | none =>
      match cut? ['='] s.toList with
      | some (stem, rest) =>
        match Flag.spellings.lookup (String.ofList stem) with
        | some flag =>
          if second = '-' then .ok (.option flag (some (String.ofList rest)))
          else .ok (.cluster rest)
        | none => if second = '-' then ofLong s else .ok (ofShort s)
      | none => if second = '-' then ofLong s else .ok (ofShort s)
  | _ => .ok (.value s)

/-- What all arguments are. -/
def ofStrings : List String → Except UsageExit (List Argument)
  | [] => .ok []
  | s :: rest =>
    if s = "--" then .ok (.separator :: rest.map .value)
    else do
      let first ← ofString s
      let others ← ofStrings rest
      .ok (first :: others)

end Argument

/-- What the command line says. The types are extensions of files to read, and `ignore` holds
fragments of paths to skip. -/
structure Arguments where
  target : Option String := none
  config : Option Given := none
  out : Option Given := none
  name : Option Given := none
  formats : Option (List Given) := none
  ignore : Option (List Given) := none
  types : Option (List Given) := none
  title : Option Given := none
  logLevel : Option Given := none
  strict : Bool := false

namespace Arguments

/-- Add to a list that may not have begun. -/
def append (values : Option (List Given)) (value : Given) : Option (List Given) :=
  some (values.getD [] ++ [value])

/-- Set an option to what it is given. -/
def set (arguments : Arguments) (flag : Flag) (value : Given) : Arguments :=
  match flag with
  | .help | .strict => arguments
  | .config => { arguments with config := some value }
  | .out => { arguments with out := some value }
  | .name => { arguments with name := some value }
  | .format => { arguments with formats := append arguments.formats value }
  | .ignore => { arguments with ignore := append arguments.ignore value }
  | .ext => { arguments with types := append arguments.types value }
  | .title => { arguments with title := some value }
  | .logLevel => { arguments with logLevel := some value }

/-- A reading in progress: what was said so far, whether the place of the target is taken, and
whether there was something without a place. -/
structure Progress where
  arguments : Arguments := {}
  hasTarget : Bool := false
  hasExtra : Bool := false

/-- The target takes its place. -/
def Progress.withTarget (progress : Progress) (target : Option String) : Progress :=
  { progress with
    arguments := { progress.arguments with target }
    hasTarget := true }

/-- Something has no place. -/
def Progress.withExtra (progress : Progress) (isExtra : Bool) : Progress :=
  { progress with hasExtra := progress.hasExtra || isExtra }

/-- Set an option to what it may be given. -/
def Progress.set (progress : Progress) (flag : Flag) (value : Given) :
    Except UsageExit Progress :=
  if flag.admits value then
    .ok { progress with arguments := progress.arguments.set flag value }
  else .error .wrong

/-- How letters attached to the help option end the run: the option may only be repeated. -/
def clusterExit (letters : List Char) : UsageExit :=
  if letters ≠ [] && letters.all (· == 'h') then .shown else .wrong

/-- Read arguments one after the other. -/
def readAll (progress : Progress) : List Argument → Except UsageExit Progress
  | [] => .ok progress
  | .value text :: .separator :: rest =>
    if progress.hasTarget then readAll (progress.withExtra true) (.separator :: rest)
    else readAll (progress.withTarget (some text)) rest
  | .value text :: rest =>
    if progress.hasTarget then readAll (progress.withExtra true) rest
    else readAll (progress.withTarget (some text)) rest
  | .separator :: .value text :: rest =>
    if progress.hasTarget then readAll (progress.withExtra true) rest
    else readAll (progress.withTarget (some text)) rest
  | .separator :: rest =>
    if progress.hasTarget then readAll (progress.withExtra true) rest
    else readAll (progress.withTarget none) rest
  | .unknown :: rest => readAll (progress.withExtra true) rest
  | .cluster letters :: _ => .error (clusterExit letters)
  | .option .help none :: _ => .error .shown
  | .option .strict none :: rest =>
    readAll { progress with arguments := { progress.arguments with strict := true } } rest
  | .option flag (some value) :: rest => do
    if flag.takesValue then
      let progress ← progress.set flag (.ofAttached value)
      readAll progress rest
    else .error .wrong
  | .option flag none :: .value value :: rest => do
    let progress ← progress.set flag (.text value)
    readAll progress rest
  | .option _ none :: _ => .error .wrong

/-- Read a command line. -/
def ofStrings (argv : List String) : Except UsageExit Arguments := do
  let found ← Argument.ofStrings argv
  let progress ← readAll {} found
  if progress.hasExtra then .error .wrong else .ok progress.arguments

/-- How the command is used. -/
def usage : String :=
  "usage: build-docs [-h] [--config CONFIG] [--out OUT] [--name NAME] [--format FORMAT]\n" ++
  "                  [--ignore IGNORE] [--ext EXT] [--title TITLE] [--log-level LEVEL]\n" ++
  "                  [--strict] [target]\n"

/-- An option as an override, null if it was not given. -/
def override : Option Given → Json
  | none => .null
  | some given => given.toJson

/-- A repeated option as an override, null if it was not given. -/
def listOverride : Option (List Given) → Json
  | none => .null
  | some values => .arr (values.map Given.toJson)

/-- What the command line says about the options of the run. -/
def overrides (arguments : Arguments) : Options.Members :=
  [("target_path", .ofOption arguments.target),
   ("output_path", override arguments.out),
   ("output_name", override arguments.name),
   ("output_formats", listOverride arguments.formats),
   ("ignore_paths", listOverride arguments.ignore),
   ("file_types", listOverride arguments.types),
   ("title", override arguments.title),
   ("log_level", override arguments.logLevel),
   ("strict", if arguments.strict then .bool true else .null)]

end Arguments

end DocAtlas
