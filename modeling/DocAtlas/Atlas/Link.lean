import DocAtlas.Atlas.Basic
import DocAtlas.Registry

/-!
# Linking

Linking turns comments into an atlas. First every comment becomes an entry, and the namespaces,
modules and files that the entries declare are registered. Then every reference of an entry is
resolved against the registries, and an entry that is no root also belongs to the entry that
describes its file. A tie between two entries is recorded at both ends, once, and an entry is never
tied to itself.
-/

namespace DocAtlas

/-- The names that the entries of one run declare. Files are registered by path. -/
structure Registries where
  namespaces : Registry Declaration := .empty
  modules : Registry Declaration := .empty
  files : Registry FileDeclaration := .empty

namespace Entry

/-- The namespaces that an entry declares. -/
def declaredNamespaces (entry : Entry) : List (String × Declaration) :=
  entry.namespaces.map fun name => (name, { id := entry.id, description := name })

/-- The modules that an entry declares. -/
def declaredModules (entry : Entry) : List (String × Declaration) :=
  entry.modules.map fun name => (name, { id := entry.id, description := name })

/-- The file that an entry describes. -/
def declaredFiles (entry : Entry) : List (String × FileDeclaration) :=
  match entry.type with
  | some type =>
    if type.kind = "file" && type.description ≠ "" then
      [(entry.origin.filePath,
        { id := entry.id
          description := type.description
          filePath := entry.origin.filePath })]
    else []
  | none => []

end Entry

/-- A tie between a member and the owner that it belongs to, with the kind of the member, how they
are tied and the name by which they are tied. -/
structure Tie where
  member : String
  kind : Option String
  owner : String
  association : String
  description : String
deriving DecidableEq

namespace Tie

/-- The member's end of a tie. -/
def toOwner (tie : Tie) : Edge :=
  { id := tie.owner
    kind := tie.kind
    association := tie.association
    description := some tie.description }

/-- The owner's end of a tie. -/
def toMember (tie : Tie) : Edge :=
  { id := tie.member
    kind := tie.kind
    association := tie.association
    description := some tie.description }

end Tie

namespace Registries

/-- Register what the entries declare, in their order. -/
def ofEntries (entries : List Entry) : Registries :=
  { namespaces := Registry.empty.registerAll (entries.flatMap Entry.declaredNamespaces)
    modules := Registry.empty.registerAll (entries.flatMap Entry.declaredModules)
    files := Registry.empty.registerAll (entries.flatMap Entry.declaredFiles) }

/-- The declaration that a reference means. -/
def resolve? (registries : Registries) (ref : MemberRef) : Option Declaration :=
  if ref.kind = "namespace" then registries.namespaces.get? ref.description
  else if ref.kind = "module" then registries.modules.get? ref.description
  else none

/-- The tie that a reference of an entry gives, if it means another entry. -/
def memberTie? (registries : Registries) (entry : Entry) (ref : MemberRef) : Option Tie :=
  (registries.resolve? ref).bind fun target =>
    if target.id = entry.id then none
    else
      some
        { member := entry.id
          kind := entry.kind
          owner := target.id
          association := ref.kind
          description := target.description }

/-- The ties that the references of an entry give. -/
def memberTies (registries : Registries) (entry : Entry) : List Tie :=
  entry.memberOf.filterMap (registries.memberTie? entry)

/-- The tie of an entry to the description of its file. -/
def fileTies (registries : Registries) (entry : Entry) : List Tie :=
  if entry.isRoot then []
  else
    match registries.files.get? entry.origin.filePath with
    | none => []
    | some file =>
      if file.id = entry.id then []
      else
        [{ member := entry.id
           kind := entry.kind
           owner := file.id
           association := "file"
           description := file.description }]

/-- All ties of the entries: first those of the references, then those of the files. -/
def ties (registries : Registries) (entries : List Entry) : List Tie :=
  entries.flatMap registries.memberTies ++ entries.flatMap registries.fileTies

/-- The edges of an entry to what it belongs to. -/
def parentsOf (registries : Registries) (entry : Entry) : List Edge :=
  ((registries.memberTies entry ++ registries.fileTies entry).map Tie.toOwner).eraseDups

end Registries

/-- The edges of an entry to what belongs to it. -/
def childrenOf (ties : List Tie) (id : String) : List Edge :=
  ((ties.filter (·.owner = id)).map Tie.toMember).eraseDups

/-- Give the entries their edges. Of several entries with one identity the last one gets the
edges to members. -/
def connect (registries : Registries) (ties : List Tie) : List Entry → List Entry
  | [] => []
  | entry :: rest =>
    { entry with
      parents := registries.parentsOf entry
      children := if entry.id ∈ rest.map Entry.id then [] else childrenOf ties entry.id } ::
      connect registries ties rest

/-- The atlas of entries without edges, and the registries behind it. -/
def Atlas.ofEntries (entries : List Entry) : Atlas × Registries :=
  let registries := Registries.ofEntries entries
  let atlas : Atlas :=
    { entries := connect registries (registries.ties entries) entries
      namespaces := registries.namespaces.values
      modules := registries.modules.values
      files := registries.files.values }
  (atlas, registries)

/-- Link comments into an atlas. -/
def Atlas.link (comments : List Comment) : Atlas :=
  (Atlas.ofEntries (comments.map Entry.ofComment)).1

/-- Something given where a comment is expected. If it is none, the name of its kind is known. -/
inductive Candidate where
  | comment (comment : Comment)
  | other (kindName : String)

/-- Something given where a list of comments is expected. If it is no list, the name of its kind is
known. -/
inductive LinkInput where
  | list (items : List Candidate)
  | other (kindName : String)

/-- Why an input cannot be linked: it is no list, or an item of the list is no comment. -/
inductive LinkError where
  | notList (kindName : String)
  | notComment (kindName : String)
deriving DecidableEq

/-- The text of a link error. -/
def LinkError.message : LinkError → String
  | notList kindName => "Expected a list of raw comments, got " ++ kindName
  | notComment kindName => "Expected RawComment, got " ++ kindName

/-- The comments of a list, or the kind of the first item that is none. -/
def Candidate.comments : List Candidate → Except LinkError (List Comment)
  | [] => .ok []
  | .comment found :: rest => (comments rest).map (found :: ·)
  | .other kindName :: _ => .error (.notComment kindName)

/-- The comments of an input. -/
def LinkInput.comments : LinkInput → Except LinkError (List Comment)
  | list items => Candidate.comments items
  | other kindName => .error (.notList kindName)

/-- A linker keeps the registries of its last successful run. -/
structure Linker where
  registries : Registries := {}

/-- Link an input. A run that fails leaves the linker as it was; any other run starts afresh. -/
def Linker.run (linker : Linker) (input : LinkInput) : Except LinkError Atlas × Linker :=
  match input.comments with
  | .error cause => (.error cause, linker)
  | .ok comments =>
    let (atlas, registries) := Atlas.ofEntries (comments.map Entry.ofComment)
    (.ok atlas, { registries })

end DocAtlas
