/-!
# Elements of a page

A page is a forest of nodes that say what is shown without saying how. A node carries its
attributes and a specification of its children; the children themselves may still be pending.
-/

namespace DocAtlas.Element

/-- What the children of a node are: there are none, or they are the navigation link and the
container of a heading, one link per heading, the tab strip and the panels of a heading, its tabs,
its panels, or the fields of an entry and the panels of its members. -/
inductive Expand where
  | none
  | rootItem
  | navLinks
  | container
  | tabs
  | panels
  | fields
deriving DecidableEq

/-- How documents name the kinds of expansion. -/
def Expand.name : Expand → String
  | none => "none"
  | rootItem => "root-item"
  | navLinks => "nav-links"
  | container => "container"
  | tabs => "tabs"
  | panels => "panels"
  | fields => "fields"

/-- The kind of expansion of a given name. -/
def Expand.ofName? (name : String) : Option Expand :=
  [none, rootItem, navLinks, container, tabs, panels, fields].find? (·.name = name)

/-- Specification of the children of a node: what they are, the entry that they come from, the group
of the heading above, and the entries that are already expanded above. -/
structure Spec where
  expand : Expand := .none
  sourceId : Option String := none
  group : Option String := none
  path : List String := []
deriving DecidableEq

/-- Attributes of a node: the text that it shows, what it is for, the group of the heading above
with a division of it, and its identifier in the page. -/
structure Attributes where
  value : Option String := none
  role : Option String := none
  group : Option String := none
  subGroup : Option String := none
  domId : Option String := none
deriving DecidableEq

/-- A node before it has an identity: its kind, its attributes, which a node from elsewhere may
lack, the entry that it shows, and what its children are. -/
structure Sketch where
  kind : String
  attributes : Option Attributes
  sourceId : Option String := none
  spec : Spec := {}
deriving DecidableEq

/-- A node without its children, with its identity and that of the node above. -/
structure NodeInfo extends Sketch where
  id : String
  parentId : Option String
deriving DecidableEq

/-- A node of a page, pending until its children are made. -/
inductive Node where
  | pending (info : NodeInfo)
  | resolved (info : NodeInfo) (children : List Node)

namespace Node

/-- The node without its children. -/
def info : Node → NodeInfo
  | pending info => info
  | resolved info _ => info

/-- The children of a node, none if they are pending. -/
def children : Node → List Node
  | pending _ => []
  | resolved _ children => children

/-- Are the children made? -/
def isResolved : Node → Bool
  | pending _ => false
  | resolved .. => true

end Node

/-- The number of characters of the longer one of the two identities that a node holds. -/
def NodeInfo.longestId (info : NodeInfo) : Nat :=
  max info.id.length (info.parentId.getD "").length

mutual

/-- The number of characters of the longest identity that a tree holds. -/
def Node.longestId : Node → Nat
  | .pending info => info.longestId
  | .resolved info children => max info.longestId (Node.longestIdOf children)

/-- The number of characters of the longest identity that a forest holds. -/
def Node.longestIdOf : List Node → Nat
  | [] => 0
  | node :: rest => max node.longestId (Node.longestIdOf rest)

end

/-- A text that is longer than all identities that a tree holds. -/
def Node.freshMark (node : Node) : String :=
  String.ofList (List.replicate (node.longestId + 1) '.')

/-- What filling in children leaves, and whether it got to the end. -/
structure Filling (α : Type) where
  left : α
  finished : Bool

/-- Apply a function to what is left. -/
def Filling.map {α β : Type} (f : α → β) (filling : Filling α) : Filling β :=
  { left := f filling.left, finished := filling.finished }

/-- The attribute of a node, nothing if it has no attributes. -/
def Sketch.attribute? (sketch : Sketch) (field : Attributes → Option String) : Option String :=
  sketch.attributes.bind field

end DocAtlas.Element
