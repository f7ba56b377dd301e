import DocAtlas.Json.Record
import DocAtlas.Proofs.Json.Values

/-!
# Written records are read back

A record is told from its JSON form by a reader that takes the members one after the other, each
under its name, and leaves none. The JSON form of every record is plain, so that its text is plain
ASCII and is read as that form, and the record is told from it. Hence different records have
different texts.
-/

namespace DocAtlas

namespace Json

variable {α β : Type}

/-! ## Telling records -/

/-- The text of a string. -/
def string? : Json → Option String
  | .str s => some s
  | _ => none

/-- A truth value. -/
def bool? : Json → Option Bool
  | .bool b => some b
  | _ => none

/-- Something that may be absent. -/
def nullable? (decode : Json → Option α) : Json → Option (Option α)
  | .null => some none
  | value => (decode value).map some

/-- The items of an array. -/
def list? (decode : Json → Option α) : Json → Option (List α)
  | .arr items => items.mapM decode
  | _ => none

/-- A reader of the members of an object, one after the other. -/
abbrev MemberReader (α : Type) :=
  StateT (List (String × Json)) Option α

/-- The next member, if it has the given name. -/
def member? (name : String) (decode : Json → Option α) : MemberReader α
  | (key, value) :: rest => if key = name then (decode value).map (·, rest) else none
  | [] => none

/-- An object whose members are read to the last one. -/
def record? (reader : MemberReader α) : Json → Option α
  | .obj members =>
    match reader members with
    | some (found, []) => some found
    | _ => none
  | _ => none

/-- A plain value from which something is told. -/
structure Tells (decode : Json → Option α) (value : Json) (found : α) : Prop where
  plain : value.Plain
  decode_eq : decode value = some found

/-- Plain members of the given names from which something is told. -/
structure MembersTell (names : List String) (reader : MemberReader α)
    (members : List (String × Json)) (found : α) : Prop where
  names_eq : members.map Prod.fst = names
  plain : ∀ member ∈ members, member.2.Plain
  reader_eq : reader members = some (found, [])

/-- Items that are told one by one are told as a list. -/
theorem mapM_map_eq {encode : α → β} {decode : β → Option α} {found : List α}
    (h : ∀ item ∈ found, decode (encode item) = some item) :
    (found.map encode).mapM decode = some found := by
  induction found with
  | nil => rfl
  | cons item items ih =>
    rw [List.forall_mem_cons] at h
    rw [List.map_cons, List.mapM_cons, h.1, ih h.2]
    rfl

namespace Tells

/-- A plain value tells itself. -/
theorem self {value : Json} (h : value.Plain) : Tells some value value :=
  ⟨h, rfl⟩

theorem string (s : String) : Tells string? (.str s) s :=
  ⟨.str s, rfl⟩

theorem bool (b : Bool) : Tells bool? (.bool b) b :=
  ⟨.bool b, rfl⟩

theorem option (s : Option String) : Tells (nullable? string?) (.ofOption s) s := by
  cases s with
  | none => exact ⟨.null, rfl⟩
  | some s => exact ⟨.str s, rfl⟩

/-- A record that may be absent is told if it cannot be taken for absent. -/
theorem nullable {decode : Json → Option α} {toJson : α → Json}
    (hrecord : ∀ found, Tells decode (toJson found) found) (hne : ∀ found, toJson found ≠ .null)
    (found : Option α) : Tells (nullable? decode) (.ofRecord? toJson found) found := by
  cases found with
  | none => exact ⟨.null, rfl⟩
  | some found =>
    refine ⟨(hrecord found).plain, ?_⟩
    rw [ofRecord?, nullable?]
    · rw [(hrecord found).decode_eq]
      rfl
    · exact hne found

/-- A list is told from the array of its items. -/
theorem list {decode : Json → Option α} {toJson : α → Json} {found : List α}
    (h : ∀ item ∈ found, Tells decode (toJson item) item) :
    Tells (list? decode) (.arr (found.map toJson)) found := by
  constructor
  · refine .arr fun value hvalue => ?_
    obtain ⟨item, hitem, rfl⟩ := List.mem_map.mp hvalue
    exact (h item hitem).plain
  · exact mapM_map_eq fun item hitem => (h item hitem).decode_eq

theorem strings (strings : List String) : Tells (list? string?) (.ofStrings strings) strings :=
  list fun s _ => string s

end Tells

namespace MembersTell

variable {names : List String} {members : List (String × Json)}

theorem done (found : α) : MembersTell [] (pure found) [] found :=
  ⟨rfl, by simp, rfl⟩

/-- A member is told before those behind it. -/
theorem member {name : String} {decode : Json → Option β} {value : Json} {told : β}
    {next : β → MemberReader α} {found : α} (h : Tells decode value told)
    (hmembers : MembersTell names (next told) members found) :
    MembersTell (name :: names) (member? name decode >>= next) ((name, value) :: members)
      found := by
  constructor
  · rw [List.map_cons, hmembers.names_eq]
  · exact List.forall_mem_cons.mpr ⟨h.plain, hmembers.plain⟩
  · have hmember : member? name decode ((name, value) :: members) = some (told, members) := by
      rw [member?, if_pos rfl, h.decode_eq]
      rfl
    change (member? name decode ((name, value) :: members)).bind _ = _
    rw [hmember]
    exact hmembers.reader_eq

end MembersTell

/-- An object is told from its members if their names differ. -/
theorem Tells.record {names : List String} {members : List (String × Json)}
    {reader : MemberReader α} {found : α} (h : MembersTell names reader members found)
    (hdistinct : names.Nodup) : Tells (record? reader) (.obj members) found := by
  refine ⟨.obj (h.names_eq ▸ hdistinct) h.plain, ?_⟩
  rw [record?, h.reader_eq]

end Json

open DocAtlas.Json

/-! ## Comments -/

/-- A tag is told from its JSON form. -/
def Tag.Occurrence.ofJson? : Json → Option Tag.Occurrence :=
  record? do
    let line ← member? "line" string?
    let name ← member? "tag_name" string?
    let description ← member? "description" string?
    return { line, name, description }

theorem Tag.Occurrence.tells (o : Tag.Occurrence) :
    Tells Tag.Occurrence.ofJson? o.toJson o :=
  .record (.member (.string _) <| .member (.string _) <| .member (.string _) <| .done _)
    (by decide)

/-- A table is told from its JSON form, in which every name has a member. -/
def Tag.Table.ofJson? : Json → Option Tag.Table
  | .obj members => members.mapM fun (name, value) =>
      (list? Tag.Occurrence.ofJson? value).map (name, ·)
  | _ => none

/-- A table in which every name stands once is told from its JSON form. -/
theorem Tag.Table.tells {table : Tag.Table} (h : (table.map Prod.fst).Nodup) :
    Tells Tag.Table.ofJson? table.toJson table := by
  have hlist (found : List Tag.Occurrence) :
      Tells (list? Tag.Occurrence.ofJson?) (.arr (found.map Tag.Occurrence.toJson)) found :=
    .list fun o _ => o.tells
  constructor
  · refine .obj ?_ fun member hmember => ?_
    · rw [List.map_map]
      exact h
    · obtain ⟨⟨name, found⟩, _, rfl⟩ := List.mem_map.mp hmember
      exact (hlist found).plain
  · refine mapM_map_eq fun (name, found) _ => ?_
    simp only [(hlist found).decode_eq, Option.map_some]

/-- A comment is told from its JSON form. -/
def Comment.ofJson? : Json → Option Comment :=
  record? do
    let id ← member? "id" string?
    let fileName ← member? "file_name" string?
    let filePath ← member? "file_path" string?
    let tags ← member? "tags" Tag.Table.ofJson?
    let created ← member? "created_date" string?
    let modified ← member? "modified_date" string?
    let text ← member? "text" string?
    return { id, fileName, filePath, tags, created, modified, text }

/-- A comment is told from its JSON form, as every name stands once in the table of its tags. -/
theorem Comment.tells {comment : Comment} (h : (comment.tags.map Prod.fst).Nodup) :
    Tells Comment.ofJson? comment.toJson comment :=
  .record
    (.member (.string _) <| .member (.string _) <| .member (.string _) <|
      .member (Tag.Table.tells h) <| .member (.string _) <| .member (.string _) <|
      .member (.string _) <| .done _)
    (by decide)

/-! ## Entries -/

/-- An origin is told from its JSON form. -/
def Origin.ofJson? : Json → Option Origin :=
  record? do
    let fileName ← member? "file_name" string?
    let filePath ← member? "file_path" string?
    let created ← member? "created_date" string?
    let modified ← member? "modified_date" string?
    return { fileName, filePath, created, modified }

theorem Origin.tells (origin : Origin) : Tells Origin.ofJson? origin.toJson origin :=
  .record
    (.member (.string _) <| .member (.string _) <| .member (.string _) <| .member (.string _) <|
      .done _)
    (by decide)

/-- A type is told from its JSON form. -/
def TypeNote.ofJson? : Json → Option TypeNote :=
  record? do
    let kind ← member? "kind" string?
    let description ← member? "description" string?
    return { kind, description }

theorem TypeNote.tells (type : TypeNote) : Tells TypeNote.ofJson? type.toJson type :=
  .record (.member (.string _) <| .member (.string _) <| .done _) (by decide)

/-- A parameter is told from its JSON form. -/
def Parameter.ofJson? : Json → Option Parameter :=
  record? do
    let id ← member? "id" string?
    let type ← member? "type" (nullable? string?)
    let name ← member? "name" (nullable? string?)
    let description ← member? "description" (nullable? string?)
    return { id, type, name, description }

theorem Parameter.tells (p : Parameter) : Tells Parameter.ofJson? p.toJson p :=
  .record
    (.member (.string _) <| .member (.option _) <| .member (.option _) <| .member (.option _) <|
      .done _)
    (by decide)

/-- A requirement is told from its JSON form. -/
def Tag.Requirement.ofJson? : Json → Option Tag.Requirement :=
  record? do
    let id ← member? "id" string?
    let type ← member? "type" (nullable? string?)
    let name ← member? "name" (nullable? string?)
    let description ← member? "description" (nullable? string?)
    return { id, type, name, description }

theorem Tag.Requirement.tells (r : Tag.Requirement) : Tells Tag.Requirement.ofJson? r.toJson r :=
  .record
    (.member (.string _) <| .member (.option _) <| .member (.option _) <| .member (.option _) <|
      .done _)
    (by decide)

/-- What is returned or thrown is told from its JSON form. -/
def Tag.Result.ofJson? : Json → Option Tag.Result :=
  record? do
    let type ← member? "type" (nullable? string?)
    let description ← member? "description" (nullable? string?)
    return { type, description }

theorem Tag.Result.tells (result : Tag.Result) :
    Tells Tag.Result.ofJson? result.toJson result :=
  .record (.member (.option _) <| .member (.option _) <| .done _) (by decide)

/-- A reference is told from its JSON form. -/
def MemberRef.ofJson? : Json → Option MemberRef :=
  record? do
    let kind ← member? "kind" string?
    let description ← member? "description" string?
    return { kind, description }

theorem MemberRef.tells (ref : MemberRef) : Tells MemberRef.ofJson? ref.toJson ref :=
  .record (.member (.string _) <| .member (.string _) <| .done _) (by decide)

/-- An edge is told from its JSON form. -/
def Edge.ofJson? : Json → Option Edge :=
  record? do
    let id ← member? "id" string?
    let kind ← member? "kind" (nullable? string?)
    let association ← member? "association" string?
    let description ← member? "description" (nullable? string?)
    return { id, kind, association, description }

theorem Edge.tells (edge : Edge) : Tells Edge.ofJson? edge.toJson edge :=
  .record
    (.member (.string _) <| .member (.option _) <| .member (.string _) <| .member (.option _) <|
      .done _)
    (by decide)

/-- An entry is told from its JSON form. -/
def Entry.ofJson? : Json → Option Entry :=
  record? do
    let id ← member? "id" string?
    let isRoot ← member? "is_root_item" bool?
    let origin ← member? "file_details" Origin.ofJson?
    let type ← member? "type" (nullable? TypeNote.ofJson?)
    let access ← member? "access" (nullable? string?)
    let summary ← member? "summary" (nullable? string?)
    let description ← member? "description" (nullable? string?)
    let version ← member? "version" (nullable? string?)
    let author ← member? "author" (nullable? string?)
    let license ← member? "license" (nullable? string?)
    let since ← member? "since" (nullable? string?)
    let text ← member? "text" string?
    let props ← member? "props" (list? Parameter.ofJson?)
    let arguments ← member? "arguments" (list? Parameter.ofJson?)
    let requires ← member? "requires" (list? Tag.Requirement.ofJson?)
    let returns ← member? "returns" (nullable? Tag.Result.ofJson?)
    let throws ← member? "throws" (nullable? Tag.Result.ofJson?)
    let changelog ← member? "changelog" (list? string?)
    let todo ← member? "todo" (list? string?)
    let bug ← member? "bug" (list? string?)
    let example_ ← member? "example" (list? string?)
    let see ← member? "see" (list? string?)
    let namespaces ← member? "namespaces" (list? string?)
    let modules ← member? "modules" (list? string?)
    let memberOf ← member? "member_of" (list? MemberRef.ofJson?)
    let parents ← member? "parent" (list? Edge.ofJson?)
    let children ← member? "children" (list? Edge.ofJson?)
    return { id, isRoot, origin, type, access, summary, description, version, author, license,
             since, text, props, arguments, requires, returns, throws, changelog, todo, bug,
             example_, see, namespaces, modules, memberOf, parents, children }

theorem Entry.tells (entry : Entry) : Tells Entry.ofJson? entry.toJson entry :=
  .record
    (.member (.string _) <| .member (.bool _) <| .member entry.origin.tells <|
      .member (.nullable TypeNote.tells (fun _ => nofun) _) <|
      .member (.option _) <| .member (.option _) <| .member (.option _) <| .member (.option _) <|
      .member (.option _) <| .member (.option _) <| .member (.option _) <| .member (.string _) <|
      .member (.list fun p _ => p.tells) <| .member (.list fun p _ => p.tells) <|
      .member (.list fun r _ => r.tells) <|
      .member (.nullable Tag.Result.tells (fun _ => nofun) _) <|
      .member (.nullable Tag.Result.tells (fun _ => nofun) _) <|
      .member (.strings _) <| .member (.strings _) <| .member (.strings _) <|
      .member (.strings _) <| .member (.strings _) <| .member (.strings _) <|
      .member (.strings _) <|
      .member (.list fun ref _ => ref.tells) <| .member (.list fun edge _ => edge.tells) <|
      .member (.list fun edge _ => edge.tells) <| .done _)
    (by decide)

/-! ## Atlases -/

/-- A declared namespace or module is told from its JSON form. -/
def Declaration.ofJson? : Json → Option Declaration :=
  record? do
    let id ← member? "id" string?
    let description ← member? "description" string?
    return { id, description }

theorem Declaration.tells (d : Declaration) : Tells Declaration.ofJson? d.toJson d :=
  .record (.member (.string _) <| .member (.string _) <| .done _) (by decide)

/-- A described file is told from its JSON form. -/
def FileDeclaration.ofJson? : Json → Option FileDeclaration :=
  record? do
    let id ← member? "id" string?
    let description ← member? "description" string?
    let filePath ← member? "file_path" string?
    return { id, description, filePath }

theorem FileDeclaration.tells (d : FileDeclaration) :
    Tells FileDeclaration.ofJson? d.toJson d :=
  .record (.member (.string _) <| .member (.string _) <| .member (.string _) <| .done _)
    (by decide)

/-- An atlas is told from its JSON form. -/
def Atlas.ofJson? : Json → Option Atlas :=
  record? do
    let entries ← member? "processed" (list? Entry.ofJson?)
    let namespaces ← member? "namespaces" (list? Declaration.ofJson?)
    let modules ← member? "modules" (list? Declaration.ofJson?)
    let files ← member? "files" (list? FileDeclaration.ofJson?)
    return { entries, namespaces, modules, files }

theorem Atlas.tells (atlas : Atlas) : Tells Atlas.ofJson? atlas.toJson atlas :=
  .record
    (.member (.list fun entry _ => entry.tells) <| .member (.list fun d _ => d.tells) <|
      .member (.list fun d _ => d.tells) <| .member (.list fun d _ => d.tells) <| .done _)
    (by decide)

/-! ## Elements -/

namespace Element

/-- The attributes of a node are told from their JSON form. -/
def Attributes.ofJson? : Json → Option Attributes :=
  record? do
    let value ← member? "value" (nullable? string?)
    let role ← member? "role" (nullable? string?)
    let group ← member? "group" (nullable? string?)
    let subGroup ← member? "sub_group" (nullable? string?)
    let domId ← member? "dom_id" (nullable? string?)
    return { value, role, group, subGroup, domId }

theorem Attributes.tells (attributes : Attributes) :
    Tells Attributes.ofJson? attributes.toJson attributes :=
  .record
    (.member (.option _) <| .member (.option _) <| .member (.option _) <| .member (.option _) <|
      .member (.option _) <| .done _)
    (by decide)

/-- The kind of expansion is told from its name. -/
def Expand.ofJson? (value : Json) : Option Expand :=
  value.string?.bind Expand.ofName?

theorem Expand.tells (expand : Expand) : Tells Expand.ofJson? (.str expand.name) expand := by
  refine ⟨.str _, ?_⟩
  cases expand <;> rfl

/-- A specification is told from its JSON form. -/
def Spec.ofJson? : Json → Option Spec :=
  record? do
    let expand ← member? "expand" Expand.ofJson?
    let sourceId ← member? "source_id" (nullable? string?)
    let group ← member? "namespace" (nullable? string?)
    let path ← member? "path" (list? string?)
    return { expand, sourceId, group, path }

theorem Spec.tells (spec : Spec) : Tells Spec.ofJson? spec.toJson spec :=
  .record
    (.member spec.expand.tells <| .member (.option _) <| .member (.option _) <|
      .member (.strings _) <| .done _)
    (by decide)

/-- A node without its children is told from the members of its JSON form; the children may be
anything. -/
def NodeInfo.reader : MemberReader NodeInfo := do
  let id ← member? "id" string?
  let parentId ← member? "parent_id" (nullable? string?)
  let kind ← member? "kind" string?
  let attributes ← member? "attributes" (nullable? Attributes.ofJson?)
  let sourceId ← member? "source_id" (nullable? string?)
  let spec ← member? "spec" Spec.ofJson?
  let _ ← member? "children" some
  return { id, parentId, kind, attributes, sourceId, spec }

theorem NodeInfo.tells (info : NodeInfo) {children : Json} (h : children.Plain) :
    Tells (record? NodeInfo.reader) (info.toJson children) info :=
  .record
    (.member (.string _) <| .member (.option _) <| .member (.string _) <|
      .member (.nullable Attributes.tells (fun _ => nofun) _) <| .member (.option _) <|
      .member info.spec.tells <| .member (.self h) <| .done _)
    (by decide)

mutual

/-- A tree is told from its JSON form. -/
def Node.ofJson? : Json → Option Node
  | .obj members => do
    let info ← record? NodeInfo.reader (.obj members)
    match ← Node.childrenOf? members with
    | none => some (.pending info)
    | some children => some (.resolved info children)
  | _ => none

/-- The children of a tree are the last of its members; null stands for pending ones. -/
def Node.childrenOf? : List (String × Json) → Option (Option (List Node))
  | [] => none
  | [(_, value)] =>
    match value with
    | .null => some none
    | .arr items => (Node.allOfJson? items).map some
    | _ => none
  | _ :: rest => Node.childrenOf? rest

/-- The trees of a forest are told from their JSON forms. -/
def Node.allOfJson? : List Json → Option (List Node)
  | [] => some []
  | item :: rest => do
    let node ← Node.ofJson? item
    let nodes ← Node.allOfJson? rest
    return node :: nodes

end

/-- A forest is told from the array of its trees. -/
def Node.forestOfJson? : Json → Option (List Node)
  | .arr items => Node.allOfJson? items
  | _ => none

/-- A tree is told from what it says without its children and from its children. -/
theorem Node.ofJson?_toJson (info : NodeInfo) {children : Json} (h : children.Plain) :
    Node.ofJson? (info.toJson children) =
      (Node.childrenOf? [("children", children)]).map fun
        | none => .pending info
        | some nodes => .resolved info nodes := by
  have hinfo : Node.ofJson? (info.toJson children) =
      (record? NodeInfo.reader (info.toJson children)).bind fun found =>
        (Node.childrenOf? [("children", children)]).bind fun
          | none => some (.pending found)
          | some nodes => some (.resolved found nodes) := rfl
  rw [hinfo, (info.tells h).decode_eq, Option.bind_some]
  cases Node.childrenOf? [("children", children)] with
  | none => rfl
  | some nodes? => cases nodes? <;> rfl

mutual

theorem Node.tells : (node : Node) → Tells Node.ofJson? node.toJson node
  | .pending info => ⟨(info.tells .null).plain, Node.ofJson?_toJson info .null⟩
  | .resolved info children => by
    have hforest := Node.tells_forest children
    refine ⟨(info.tells hforest.plain).plain, (Node.ofJson?_toJson info hforest.plain).trans ?_⟩
    have hnodes : Node.allOfJson? (Node.allToJson children) = some children := hforest.decode_eq
    rw [Node.childrenOf?, hnodes]
    rfl

/-- The trees of a forest are told from their JSON forms. -/
theorem Node.tells_forest : (nodes : List Node) →
    Tells Node.forestOfJson? (.arr (Node.allToJson nodes)) nodes
  | [] => ⟨.arr (by simp [Node.allToJson]), rfl⟩
  | node :: rest => by
    have hnode := Node.tells node
    have hforest := Node.tells_forest rest
    have hnodes : Node.allOfJson? (Node.allToJson rest) = some rest := hforest.decode_eq
    constructor
    · cases hforest.plain with
      | arr hplain => exact .arr (List.forall_mem_cons.mpr ⟨hnode.plain, hplain⟩)
    · rw [Node.forestOfJson?, Node.allToJson, Node.allOfJson?, hnode.decode_eq, hnodes]
      rfl

end

end Element

/-! ## Texts -/

namespace Json

/-- Records of a kind are kept by their texts: a text is ASCII, it is read as the JSON form of its
record, and the record is told from that form. So different records have different texts. -/
structure Faithful {α : Type} (valid : α → Prop) (toJson : α → Json) (decode : Json → Option α) :
    Prop where
  ascii : ∀ record, valid record → ∀ c ∈ (toJson record).write.toList, c.toNat < 128
  read_write : ∀ record, valid record → read (toJson record).write = .ok (toJson record)
  decode_toJson : ∀ record, valid record → decode (toJson record) = some record
  injective : ∀ record other, valid record → valid other →
    (toJson record).write = (toJson other).write → record = other

/-- Records that are told from their JSON forms are kept by their texts. -/
theorem Faithful.of_tells {α : Type} {valid : α → Prop} {toJson : α → Json}
    {decode : Json → Option α} (h : ∀ record, valid record → Tells decode (toJson record) record) :
    Faithful valid toJson decode := by
  have hread (record : α) (hvalid : valid record) :
      read (toJson record).write = .ok (toJson record) :=
    (h record hvalid).plain.read_write
  refine ⟨fun record hvalid => (h record hvalid).plain.ascii_write, hread,
    fun record hvalid => (h record hvalid).decode_eq, ?_⟩
  intro record other hrecord hother htext
  have hform : toJson record = toJson other := by
    have heq := hread record hrecord
    rw [htext, hread other hother] at heq
    exact (Except.ok.inj heq).symm
  have hdecode := (h record hrecord).decode_eq
  rw [hform, (h other hother).decode_eq] at hdecode
  exact (Option.some.inj hdecode).symm

/-- Lists of comments in whose tables every name stands once, atlases and forests are kept by their
texts. -/
theorem texts_faithful :
    Faithful (fun comments : List Comment =>
        ∀ comment ∈ comments, (comment.tags.map Prod.fst).Nodup)
      (fun comments => .arr (comments.map Comment.toJson)) (list? Comment.ofJson?) ∧
    Faithful (fun _ => True) Atlas.toJson Atlas.ofJson? ∧
    Faithful (fun _ => True) (fun forest => .arr (Element.Node.allToJson forest))
      Element.Node.forestOfJson? := by
  refine ⟨.of_tells fun comments hcomments => ?_, .of_tells fun atlas _ => atlas.tells,
    .of_tells fun forest _ => Element.Node.tells_forest forest⟩
  exact .list fun comment hcomment => Comment.tells (hcomments comment hcomment)

/-- A comment with characters of all sorts, an empty table entry and a repeated tag. -/
def motley : Comment :=
  { id := "\x22\\/"
    fileName := ""
    filePath := "a\tb\x7f\x07.js"
    tags :=
      [("see", [{ line := "* @see é😀", name := "see", description := "é😀" },
          { line := "* @see \x7b\x7d", name := "see", description := "\x7b\x7d" }]),
        ("", [])]
    created := "2024-01-02T03:04:05"
    modified := "2024-01-02T03:04:05"
    text := "one\ntwo" }

/-- The comment is read back from its text. -/
theorem texts_faithful_motley :
    (read (Json.arr [motley.toJson]).write).toOption.bind (list? Comment.ofJson?) =
      some [motley] := by
  have hkeyed : ∀ comment ∈ [motley], (comment.tags.map Prod.fst).Nodup := by decide
  have hread := texts_faithful.1.read_write [motley] hkeyed
  have hdecode := texts_faithful.1.decode_toJson [motley] hkeyed
  rw [List.map_singleton] at hread hdecode
  rw [hread]
  exact hdecode

end Json

end DocAtlas
