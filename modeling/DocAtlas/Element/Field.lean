import DocAtlas.Atlas.Basic

/-!
# Fields of a panel

The panel of an entry lists what is known about it, one field per fact, in a fixed order.
-/

namespace DocAtlas

open DocAtlas.Text

/-- A fact of an entry: the name of the field and its text. -/
abbrev Field := String × String

/-- A text that may be absent, as it is spelled inside another text. -/
def spelled (s : Option String) : String :=
  s.getD "None"

/-- One line for a type, a name and a description, each of which may be absent or empty. -/
def describeParts (type name description : Option String) : String :=
  let head := (name.bind nonempty?).getD ""
  let head :=
    match type.bind nonempty? with
    | none => head
    | some type => if head = "" then "(" ++ type ++ ")" else head ++ " (" ++ type ++ ")"
  match description.bind nonempty? with
  | none => head
  | some description => if head = "" then description else head ++ " - " ++ description

namespace Entry

/-- A field for a text, none if it is absent or empty. -/
def textField (name : String) (text : Option String) : List Field :=
  match text.bind nonempty? with
  | none => []
  | some text => [(name, text)]

/-- One field per text. -/
def listFields (name : String) (texts : List String) : List Field :=
  texts.map fun text => (name, text)

/-- A field for what is returned or thrown. -/
def resultField (name : String) (result : Option Tag.Result) : List Field :=
  match result with
  | none => []
  | some result => [(name, describeParts result.type none result.description)]

/-- One field per parameter. -/
def parameterFields (name : String) (parameters : List Parameter) : List Field :=
  parameters.map fun p => (name, describeParts p.type p.name p.description)

end Entry

namespace Atlas

/-- The field of a module, marked if another entry declares it. -/
def moduleField (atlas : Atlas) (entry : Entry) (name : String) : Field :=
  let declarer :=
    match atlas.modules.findRev? (·.description = name) with
    | some declaration => declaration.id
    | none => entry.id
  ("module", if declarer = entry.id then name else name ++ " (declared elsewhere)")

/-- The field of the file: its description, or its path if it has none. -/
def fileField (atlas : Atlas) (entry : Entry) : Field :=
  match atlas.files.findRev? (·.filePath = entry.origin.filePath) with
  | some file => ("file", file.description)
  | none => ("file", entry.origin.filePath)

/-- The fields of an entry in the order of its panel. -/
def fieldsOf (atlas : Atlas) (entry : Entry) : List Field :=
  [("title", entry.title)] ++
  (match entry.type with
    | none => []
    | some type => [("type", describeParts (some type.kind) none (some type.description))]) ++
  Entry.textField "summary" entry.summary ++
  Entry.textField "description" entry.description ++
  Entry.textField "access" entry.access ++
  Entry.textField "version" entry.version ++
  Entry.textField "since" entry.since ++
  Entry.textField "author" entry.author ++
  Entry.textField "license" entry.license ++
  Entry.textField "text" (some entry.text) ++
  entry.modules.map (atlas.moduleField entry) ++
  [atlas.fileField entry] ++
  Entry.parameterFields "param" entry.props ++
  Entry.parameterFields "argument" entry.arguments ++
  (entry.requires.map fun r =>
    ("requires",
      describeParts r.type r.name (if r.name = r.description then none else r.description))) ++
  Entry.resultField "returns" entry.returns ++
  Entry.resultField "throws" entry.throws ++
  Entry.listFields "changelog" entry.changelog ++
  Entry.listFields "example" entry.example_ ++
  Entry.listFields "see" entry.see ++
  Entry.listFields "todo" entry.todo ++
  Entry.listFields "bug" entry.bug ++
  (entry.parents.map fun edge =>
    ("parent", edge.association ++ ": " ++ spelled edge.description))

end Atlas

end DocAtlas
