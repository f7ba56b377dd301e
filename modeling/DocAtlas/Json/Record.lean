import DocAtlas.Atlas.Basic
import DocAtlas.Element.Basic
import DocAtlas.Json.Value

/-!
# Records as JSON

The JSON form of comments, entries, declarations and elements: an object per record with its
fields in a fixed order.
-/

namespace DocAtlas

/-- The JSON form of a tag. -/
def Tag.Occurrence.toJson (o : Tag.Occurrence) : Json :=
  .obj [("line", .str o.line), ("tag_name", .str o.name), ("description", .str o.description)]

/-- The JSON form of a tag table: an object with one member per name. -/
def Tag.Table.toJson (table : Tag.Table) : Json :=
  .obj (table.map fun (name, found) => (name, .arr (found.map Tag.Occurrence.toJson)))

/-- The JSON form of a comment. -/
def Comment.toJson (comment : Comment) : Json :=
  .obj
    [("id", .str comment.id),
     ("file_name", .str comment.fileName),
     ("file_path", .str comment.filePath),
     ("tags", comment.tags.toJson),
     ("created_date", .str comment.created),
     ("modified_date", .str comment.modified),
     ("text", .str comment.text)]

/-- The JSON form of an origin. -/
def Origin.toJson (origin : Origin) : Json :=
  .obj
    [("file_name", .str origin.fileName),
     ("file_path", .str origin.filePath),
     ("created_date", .str origin.created),
     ("modified_date", .str origin.modified)]

/-- The JSON form of a type. -/
def TypeNote.toJson (type : TypeNote) : Json :=
  .obj [("kind", .str type.kind), ("description", .str type.description)]

/-- The JSON form of a parameter. -/
def Parameter.toJson (p : Parameter) : Json :=
  .obj
    [("id", .str p.id), ("type", .ofOption p.type), ("name", .ofOption p.name),
     ("description", .ofOption p.description)]

/-- The JSON form of a requirement. -/
def Tag.Requirement.toJson (r : Tag.Requirement) : Json :=
  .obj
    [("id", .str r.id), ("type", .ofOption r.type), ("name", .ofOption r.name),
     ("description", .ofOption r.description)]

/-- The JSON form of what is returned or thrown. -/
def Tag.Result.toJson (result : Tag.Result) : Json :=
  .obj [("type", .ofOption result.type), ("description", .ofOption result.description)]

/-- The JSON form of a reference. -/
def MemberRef.toJson (ref : MemberRef) : Json :=
  .obj [("kind", .str ref.kind), ("description", .str ref.description)]

/-- The JSON form of an edge. -/
def Edge.toJson (edge : Edge) : Json :=
  .obj
    [("id", .str edge.id), ("kind", .ofOption edge.kind), ("association", .str edge.association),
     ("description", .ofOption edge.description)]

/-- The JSON form of a record that may be absent. -/
def Json.ofRecord? {α : Type} (toJson : α → Json) : Option α → Json
  | none => .null
  | some record => toJson record

/-- The fields of an entry in JSON form. -/
def Entry.jsonFields (entry : Entry) : List (String × Json) :=
  [("id", .str entry.id),
   ("is_root_item", .bool entry.isRoot),
   ("file_details", entry.origin.toJson),
   ("type", .ofRecord? TypeNote.toJson entry.type),
   ("access", .ofOption entry.access),
   ("summary", .ofOption entry.summary),
   ("description", .ofOption entry.description),
   ("version", .ofOption entry.version),
   ("author", .ofOption entry.author),
   ("license", .ofOption entry.license),
   ("since", .ofOption entry.since),
   ("text", .str entry.text),
   ("props", .arr (entry.props.map Parameter.toJson)),
   ("arguments", .arr (entry.arguments.map Parameter.toJson)),
   ("requires", .arr (entry.requires.map Tag.Requirement.toJson)),
   ("returns", .ofRecord? Tag.Result.toJson entry.returns),
   ("throws", .ofRecord? Tag.Result.toJson entry.throws),
   ("changelog", .ofStrings entry.changelog),
   ("todo", .ofStrings entry.todo),
   ("bug", .ofStrings entry.bug),
   ("example", .ofStrings entry.example_),
   ("see", .ofStrings entry.see),
   ("namespaces", .ofStrings entry.namespaces),
   ("modules", .ofStrings entry.modules),
   ("member_of", .arr (entry.memberOf.map MemberRef.toJson)),
   ("parent", .arr (entry.parents.map Edge.toJson)),
   ("children", .arr (entry.children.map Edge.toJson))]

/-- The JSON form of an entry. -/
def Entry.toJson (entry : Entry) : Json :=
  .obj entry.jsonFields

/-- The JSON form of a declared namespace or module. -/
def Declaration.toJson (d : Declaration) : Json :=
  .obj [("id", .str d.id), ("description", .str d.description)]

/-- The JSON form of a described file. -/
def FileDeclaration.toJson (d : FileDeclaration) : Json :=
  .obj [("id", .str d.id), ("description", .str d.description), ("file_path", .str d.filePath)]

/-- The JSON form of an atlas. -/
def Atlas.toJson (atlas : Atlas) : Json :=
  .obj
    [("processed", .arr (atlas.entries.map Entry.toJson)),
     ("namespaces", .arr (atlas.namespaces.map Declaration.toJson)),
     ("modules", .arr (atlas.modules.map Declaration.toJson)),
     ("files", .arr (atlas.files.map FileDeclaration.toJson))]

namespace Element

/-- The JSON form of the attributes of a node. -/
def Attributes.toJson (attributes : Attributes) : Json :=
  .obj
    [("value", .ofOption attributes.value),
     ("role", .ofOption attributes.role),
     ("group", .ofOption attributes.group),
     ("sub_group", .ofOption attributes.subGroup),
     ("dom_id", .ofOption attributes.domId)]

/-- The JSON form of a specification. -/
def Spec.toJson (spec : Spec) : Json :=
  .obj
    [("expand", .str spec.expand.name),
     ("source_id", .ofOption spec.sourceId),
     ("namespace", .ofOption spec.group),
     ("path", .ofStrings spec.path)]

/-- The JSON form of a node with the given children. -/
def NodeInfo.toJson (info : NodeInfo) (children : Json) : Json :=
  .obj
    [("id", .str info.id),
     ("parent_id", .ofOption info.parentId),
     ("kind", .str info.kind),
     ("attributes", .ofRecord? Attributes.toJson info.attributes),
     ("source_id", .ofOption info.sourceId),
     ("spec", info.spec.toJson),
     ("children", children)]

mutual

/-- The JSON form of a tree; pending children are null. -/
def Node.toJson : Node → Json
  | .pending info => info.toJson .null
  | .resolved info children => info.toJson (.arr (Node.allToJson children))

/-- The JSON forms of the trees of a forest. -/
def Node.allToJson : List Node → List Json
  | [] => []
  | node :: rest => node.toJson :: Node.allToJson rest

end

end Element

end DocAtlas
