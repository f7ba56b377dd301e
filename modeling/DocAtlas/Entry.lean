import DocAtlas.Comment.Basic
import DocAtlas.Tag.Requirement
import DocAtlas.Tag.Value

/-!
# Entries

An entry is a comment in queryable form: its tags are read into fields, and edges tie it to the
entries it belongs to and to those that belong to it.
-/

namespace DocAtlas

open DocAtlas.Text

/-- The kind of thing that an entry documents, `file` for the comment of a whole file, with what is
said about it. -/
structure TypeNote where
  kind : String
  description : String
deriving DecidableEq

/-- A documented parameter of the entry with the given identity. -/
structure Parameter where
  id : String
  type : Option String
  name : Option String
  description : Option String
deriving DecidableEq

/-- A reference to the namespace or module that an entry belongs to, with the name that is referred
to. The kind is `namespace` or `module`, and empty if the reference does not say. -/
structure MemberRef where
  kind : String
  description : String
deriving DecidableEq

/-- One end of a tie between an entry and one that belongs to it: the entry at the other end, the
kind of the entry that belongs to the other one, the association `namespace`, `module` or `file`,
and the name by which they are tied. -/
structure Edge where
  id : String
  kind : Option String
  association : String
  description : Option String
deriving DecidableEq

/-- Where an entry comes from: the last segment of the file's path, the path, and when the file was
created and last changed. -/
structure Origin where
  fileName : String
  filePath : String
  created : String
  modified : String
deriving DecidableEq

/-- A comment in queryable form. The text is the free text of the comment, and `namespaces` and
`modules` are what it declares. The references to what it belongs to are in `memberOf`, the entries
that it is found to belong to in `parents`, and those that belong to it in `children`. -/
structure Entry where
  id : String
  isRoot : Bool
  origin : Origin
  type : Option TypeNote := none
  access : Option String := none
  summary : Option String := none
  description : Option String := none
  version : Option String := none
  author : Option String := none
  license : Option String := none
  since : Option String := none
  text : String := ""
  props : List Parameter := []
  arguments : List Parameter := []
  requires : List Tag.Requirement := []
  returns : Option Tag.Result := none
  throws : Option Tag.Result := none
  changelog : List String := []
  todo : List String := []
  bug : List String := []
  example_ : List String := []
  see : List String := []
  namespaces : List String := []
  modules : List String := []
  memberOf : List MemberRef := []
  parents : List Edge := []
  children : List Edge := []
deriving DecidableEq

/-- The name of a namespace without surrounding blanks and braces. -/
def stripBraces (value : String) : String :=
  let s := trim value.toList
  let s := if s.head? = some '\x7b' then s.tail else s
  let s := if s.getLast? = some '\x7d' then s.dropLast else s
  String.ofList (trim s)

/-- Read a type value `{kind} description`. -/
def TypeNote.ofString (value : String) : TypeNote :=
  let s := value.toList
  { kind := String.ofList (trim ((before ['\x7d'] s).filter (· != '\x7b')))
    description := String.ofList (trim (after ['\x7d'] s)) }

/-- The type that a comment states, or that of a file if it describes one. -/
def TypeNote.ofTags? (tags : Tag.Table) : Option TypeNote :=
  match tags.value? "type" with
  | some value => some (.ofString value)
  | none => (tags.value? "file").map fun description => { kind := "file", description }

/-- Read a reference `kind:name`. -/
def MemberRef.ofString (value : String) : MemberRef :=
  match cut? [':'] value.toList with
  | some (kind, name) =>
    { kind := String.ofList (trim kind), description := String.ofList (trim name) }
  | none => { kind := "", description := trimmed value }

/-- A parameter of an entry, read from a tag value. -/
def Parameter.ofValue (id value : String) : Parameter :=
  let { type, name, description } := Tag.Value.ofString value
  { id, type, name, description }

namespace Entry

/-- The entry of a comment, without edges. -/
def ofComment (comment : Comment) : Entry :=
  let tags := comment.tags
  { id := comment.id
    isRoot := (tags.value? "namespace").isSome
    origin :=
      { fileName := comment.fileName
        filePath := comment.filePath
        created := comment.created
        modified := comment.modified }
    type := TypeNote.ofTags? tags
    access := tags.value? "access"
    summary := tags.value? "summary"
    description := tags.value? "description"
    version := tags.value? "version"
    author := tags.value? "author"
    license := tags.value? "license"
    since := tags.value? "since"
    text := comment.text
    props := (tags.values "param").map (Parameter.ofValue comment.id)
    arguments := (tags.values "argument").map (Parameter.ofValue comment.id)
    requires := (tags.values "requires").map (Tag.Requirement.classify comment.id)
    returns := ((tags.value? "returns").or (tags.value? "return")).map Tag.Result.ofString
    throws := (tags.value? "throws").map Tag.Result.ofString
    changelog := tags.values "changelog"
    todo := tags.values "todo"
    bug := tags.values "bug"
    example_ := tags.values "example"
    see := tags.values "see"
    namespaces := (tags.values "namespace").map stripBraces
    modules := tags.values "module"
    memberOf := (tags.values "memberof").map MemberRef.ofString }

/-- The kind of thing that the entry documents. -/
def kind (entry : Entry) : Option String :=
  entry.type.map TypeNote.kind

/-- The description of the type, nothing if there is none or it is empty. -/
def typeDescription? (entry : Entry) : Option String :=
  entry.type.bind fun type => nonempty? type.description

/-- The title: the first namespace, the first module, the type's description, the summary or the
file name, whichever comes first. -/
def title (entry : Entry) : String :=
  match entry.namespaces, entry.modules with
  | name :: _, _ => name
  | [], name :: _ => name
  | [], [] =>
    match entry.typeDescription?, entry.summary.bind nonempty? with
    | some description, _ => description
    | none, some summary => summary
    | none, none => entry.origin.fileName

/-- Does the entry head a section of its own? It is a root and has a namespace to stand under. -/
def isHeading (entry : Entry) : Bool :=
  entry.isRoot && !entry.namespaces.isEmpty

/-- The first namespace of the entry. -/
def group (entry : Entry) : String :=
  entry.namespaces.headD ""

end Entry

end DocAtlas
