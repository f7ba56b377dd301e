import DocAtlas.Element.Basic

/-!
# Numbering

The nodes of a finished forest get their final identities from a supply, in pre-order. A node that
names its parent follows the parent's new identity.
-/

namespace DocAtlas.Element

mutual

/-- The identities of a tree in pre-order. -/
def Node.ids : Node → List String
  | .pending info => [info.id]
  | .resolved info children => info.id :: Node.idsAll children

/-- The identities of a forest in pre-order. -/
def Node.idsAll : List Node → List String
  | [] => []
  | node :: rest => node.ids ++ Node.idsAll rest

end

/-- Old identities with the new ones. -/
abbrev Renaming := List (String × String)

/-- The new identity of a node; of several nodes with one identity the last one counts, and an
unknown identity stays as it is. -/
def Renaming.apply (table : Renaming) (id : String) : String :=
  match table.findRev? fun (old, _) => old = id with
  | some (_, new) => new
  | none => id

/-- Give a node a new identity. The node that holds it is known by its old and new identity. -/
def NodeInfo.renamed (info : NodeInfo) (table : Renaming) (holder : Option (String × String))
    (id : String) : NodeInfo :=
  { info with
    id
    parentId :=
      match info.parentId, holder with
      | none, _ => none
      | some parent, none => some (table.apply parent)
      | some parent, some (old, new) =>
        if parent = old then some new else some (table.apply parent) }

mutual

/-- Number a tree from a position of the supply; gives the next free position as well. -/
def Node.numberFrom (supply : Nat → String) (table : Renaming)
    (holder : Option (String × String)) (next : Nat) : Node → Node × Nat
  | .pending info => (.pending (info.renamed table holder (supply next)), next + 1)
  | .resolved info children =>
    let (children, last) :=
      Node.numberAllFrom supply table (some (info.id, supply next)) (next + 1) children
    (.resolved (info.renamed table holder (supply next)) children, last)

/-- Number a forest from a position of the supply. -/
def Node.numberAllFrom (supply : Nat → String) (table : Renaming)
    (holder : Option (String × String)) (next : Nat) : List Node → List Node × Nat
  | [] => ([], next)
  | node :: rest =>
    let (node, next) := Node.numberFrom supply table holder next node
    let (rest, next) := Node.numberAllFrom supply table holder next rest
    (node :: rest, next)

end

/-- Number a forest. -/
def Node.numberAll (supply : Nat → String) (forest : List Node) : List Node :=
  let table := (Node.idsAll forest).mapIdx fun index id => (id, supply index)
  (Node.numberAllFrom supply table none 0 forest).1

end DocAtlas.Element
