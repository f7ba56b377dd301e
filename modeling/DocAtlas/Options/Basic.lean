import DocAtlas.Options.Check
import DocAtlas.Page.Settings

/-!
# Options

The options of a run: what to document, where to write and in which form. Options are given by a
record of JSON values; each option that is not given has a default.
-/

namespace DocAtlas

open DocAtlas.Text

/-- A form of output. -/
inductive Format where
  | json
  | md
  | html
deriving DecidableEq

/-- The name of a form of output. -/
def Format.name : Format → String
  | json => "json"
  | md => "md"
  | html => "html"

/-- The forms of output by name. -/
def Format.words : List (String × Format) :=
  [("json", json), ("md", md), ("html", html)]

/-- How much is logged. -/
inductive LogLevel where
  | debug
  | info
  | warning
  | error
  | critical
deriving DecidableEq

/-- The name of a log level. -/
def LogLevel.name : LogLevel → String
  | debug => "debug"
  | info => "info"
  | warning => "warning"
  | error => "error"
  | critical => "critical"

/-- The log levels by name. -/
def LogLevel.words : List (String × LogLevel) :=
  [("debug", debug), ("info", info), ("warning", warning), ("error", error),
   ("critical", critical)]

/-- The options of a run. Paths that hold a fragment of `ignorePaths` are skipped, `fileTypes` are
the extensions of the files that are read, and under `strict` findings stop the run. Where no check
looks into a text, half of a surrogate pair may stand alone in it. -/
structure Options where
  targetPath : LooseString := "."
  ignorePaths : List LooseString := ["node_modules", ".git", ".dist", "dist", "__pycache__"]
  fileTypes : List LooseString := ["js", "jsx", "ts", "tsx", "mjs", "cjs"]
  outputPath : LooseString := "./.dist"
  outputName : String := "docs"
  formats : List Format := [.json, .html]
  title : LooseString := "Documentation"
  logLevel : LogLevel := .info
  strict : Bool := false
  page : PageSettings LooseString := PageSettings.standard.map .ofString
deriving DecidableEq

namespace Options

/-- The most characters that the name of the documents may have. -/
def maxNameLength : Nat := 128

/-- The settings of a page. -/
def checkPage : Check (PageSettings LooseString)
  | .obj members =>
    let default := PageSettings.standard.map LooseString.ofString
    let strings := checkList checkString
    (((Checked.apply
      ((member members "meta" default.metaEntries strings).map PageSettings.mk)
      (member members "scripts" default.scripts strings)).apply
      (member members "styles" default.styles strings)).apply
      (member members "body_classes" default.bodyClasses strings))
  | _ => refuse .recordType

/-- Check all options of a record, in a fixed order. Unknown members are ignored. -/
def ofMembers (members : Members) : Checked Options :=
  let default : Options := {}
  let strings := checkList checkString
  let target := member members "target_path" default.targetPath checkString
  let ignore := member members "ignore_paths" default.ignorePaths strings
  let types := member members "file_types" default.fileTypes (checkNonempty checkString)
  let output := member members "output_path" default.outputPath checkString
  let name := member members "output_name" default.outputName (checkBounded 1 maxNameLength)
  let formats := member members "output_formats" default.formats
    (checkList (checkWord Format.words))
  let title := member members "title" default.title checkString
  let level := member members "log_level" default.logLevel (checkWord LogLevel.words)
  let strict := member members "strict" default.strict checkBool
  let page := member members "html" default.page checkPage
  (((((((((target.map Options.mk).apply ignore).apply types).apply output).apply name).apply
    formats).apply title).apply level).apply strict).apply page

/-- The fragments of paths that are skipped. A fragment in which half of a surrogate pair stands
alone occurs in no path. -/
def fragments (options : Options) : List String :=
  options.ignorePaths.filterMap LooseString.toString?

/-- The extensions of the files that are read. No file has an extension in which half of a surrogate
pair stands alone. -/
def extensions (options : Options) : List String :=
  options.fileTypes.filterMap LooseString.toString?

end Options

end DocAtlas
