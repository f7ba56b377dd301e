import DocAtlas.Json.Reader
import DocAtlas.Options.Basic
import DocAtlas.Path
import DocAtlas.Text.Blank
import DocAtlas.Text.Decode

/-!
# Loading options

Options come from an optional configuration file, a JSON object, with overrides on top. An
override that is null leaves the option as it was.
-/

namespace DocAtlas

open DocAtlas.Text

/-- A configuration file as it was found, without bytes if it could not be read. -/
structure ConfigFile where
  path : String
  bytes : Option ByteArray

/-- Why no options are loaded: the configuration file cannot be read, its path holds a null
character, it is no UTF-8 text, no JSON or no JSON object, it holds an integer with too many digits,
or some options are wrong. -/
inductive LoadError where
  | unreadable (path : String)
  | nullInPath
  | undecodable
  | notJson (path : String)
  | integerTooLong
  | notObject (path : String)
  | invalid (path : Option String) (problems : List Options.Problem)
deriving DecidableEq

/-- The members that a configuration file gives. -/
def ConfigFile.members (file : ConfigFile) : Except LoadError Options.Members :=
  let path := (Path.ofString file.path).toString
  if (Path.ofString file.path).hasNull then .error .nullInPath
  else
    match file.bytes with
    | none => .error (.unreadable path)
    | some bytes =>
      match decode? bytes with
      | none => .error .undecodable
      | some text =>
        match Json.read text with
        | .error .malformed => .error (.notJson path)
        | .error .integerTooLong => .error .integerTooLong
        | .ok (.obj members) => .ok members
        | .ok _ => .error (.notObject path)

namespace Options

/-- Put overrides on top of given members; those that are null are ignored. -/
def override (members overrides : Members) : Members :=
  overrides.foldl
    (fun members (name, value) =>
      match value with
      | .null => members
      | value => Keyed.put name value members)
    members

/-- Load options from an optional configuration file and overrides. -/
def load (config : Option ConfigFile) (overrides : Members) : Except LoadError Options := do
  let members ←
    match config with
    | none => .ok []
    | some file => file.members
  match ofMembers (override members overrides) with
  | .pass options => .ok options
  | .fail problems =>
    .error (.invalid ((config.map ConfigFile.path).bind nonempty?) problems)

/-- The way to a place, with dots between the steps. -/
def Problem.place (problem : Problem) : String :=
  ".".intercalate (problem.location.map fun
    | .key name => name
    | .index position => position.repr)

end Options

/-- Is the error one that the program reports? The others end the run at once. -/
def LoadError.isReported : LoadError → Bool
  | nullInPath | undecodable | integerTooLong => false
  | _ => true

/-- The text of a load error. -/
def LoadError.message : LoadError → String
  | unreadable path => "Cannot read config file: " ++ path
  | nullInPath => "Config path holds a null character"
  | undecodable => "Config file is not UTF-8"
  | notJson path => "Invalid JSON in config file: " ++ path
  | integerTooLong => "Config file holds an integer with too many digits"
  | notObject _ => "Config file must contain a JSON object"
  | invalid _ problems =>
    "Invalid options: " ++
      ", ".intercalate (problems.map fun p => p.place ++ " " ++ p.fault.name)

end DocAtlas
