import DocAtlas.Route
import DocAtlas.Tree

/-!
# File systems

A file system is a tree with a working directory in it. Routes are followed name by name, from the
working directory or from the top; `..` leads one level up, and from the top back to the top.
-/

namespace DocAtlas

/-- A tree and the location of the working directory in it. -/
structure FileSystem where
  tree : Tree
  here : List Name

/-- Why a route cannot be used as wanted: a name leads to nothing or to the wrong thing, something
is there already, a name or the whole route is too long, or a name holds a null character. -/
inductive PathError where
  | notFound
  | notDirectory
  | alreadyThere
  | isDirectory
  | tooLong
  | nullCharacter
deriving DecidableEq

namespace FileSystem

/-- The name of a working directory of which nothing but its content is known. It is empty and no
text, so that no route leads from above into the working directory and no file below it has a path
from there. -/
def unknownName : Name := .raw []

/-- The file system around a working directory. -/
def around (tree : Tree) : FileSystem :=
  { tree := .dir [(unknownName, tree)], here := [unknownName] }

/-- What the working directory holds. -/
def working (fs : FileSystem) : Tree :=
  (fs.tree.at? fs.here).getD (.dir [])

/-- The most bytes that a name may have. -/
def maxNameBytes : Nat := 255

/-- The most bytes that a route may have. -/
def maxRouteBytes : Nat := 4095

/-- Is a route no longer than a route may be? -/
def admits (route : Route) : Bool :=
  route.byteCount ≤ maxRouteBytes

/-- Follow names from a location to another one. -/
def follow (tree : Tree) (location : List Name) : List Name → Except PathError (List Name)
  | [] => .ok location
  | name :: rest =>
    match (tree.at? location).bind Tree.entries? with
    | none => .error .notDirectory
    | some entries =>
      if name = .up then follow tree location.dropLast rest
      else if maxNameBytes < name.byteCount then .error .tooLong
      else if (entries.lookup name).isSome then follow tree (location ++ [name]) rest
      else .error .notFound

/-- The location that a route leads to. -/
def locate (fs : FileSystem) (route : Route) : Except PathError (List Name) :=
  if route.hasNull then .error .nullCharacter
  else if !admits route then .error .tooLong
  else follow fs.tree (if route.root = "" then fs.here else []) route.names

/-- What a route leads to. -/
def find (fs : FileSystem) (route : Route) : Except PathError Tree := do
  let location ← fs.locate route
  match fs.tree.at? location with
  | some found => .ok found
  | none => .error .notFound

/-- The location of the directory that holds the last name of a route, and that name. -/
def slot (fs : FileSystem) (route : Route) : Except PathError (List Name × Option Name) :=
  match route.names.getLast? with
  | none => .ok ([], none)
  | some last => do
    if route.hasNull then .error .nullCharacter
    if !admits route then .error .tooLong
    let location ← fs.locate { route with names := route.names.dropLast }
    if fs.tree.hasDirAt location then .ok (location, some last) else .error .notDirectory

/-- Put something at a location. -/
def put (fs : FileSystem) (new : Tree) (location : List Name) : FileSystem :=
  { fs with tree := fs.tree.put new location }

/-- Make a directory whose parent exists. -/
def makeDir (fs : FileSystem) (route : Route) : Except PathError FileSystem := do
  match ← fs.slot route with
  | (_, none) => .error .alreadyThere
  | (location, some name) =>
    if name = .up then .error .alreadyThere
    else if maxNameBytes < name.byteCount then .error .tooLong
    else if (fs.tree.at? (location ++ [name])).isSome then .error .alreadyThere
    else .ok (fs.put (.dir []) (location ++ [name]))

/-- Does a route lead to a directory? -/
def hasDir (fs : FileSystem) (route : Route) : Bool :=
  match fs.find route with
  | .ok found => found.isDir
  | .error _ => false

/-- A directory that may already be there. -/
def ensureDir (fs : FileSystem) (route : Route) : Except PathError FileSystem :=
  match fs.makeDir route with
  | .ok fs => .ok fs
  | .error cause => if fs.hasDir route then .ok fs else .error cause

/-- A directory that may already be there, with the directories on the way to it. The names of the
route are given from the last to the first. -/
def ensureDirs (fs : FileSystem) (root : String) : List Name → Except PathError FileSystem
  | [] => fs.ensureDir { root, names := [] }
  | last :: before =>
    let route : Route := { root, names := (last :: before).reverse }
    match fs.makeDir route with
    | .error .notFound => do
      let fs ← fs.ensureDirs root before
      fs.ensureDir route
    | _ => fs.ensureDir route

/-- Write a file, replacing one that is already there. -/
def writeFile (fs : FileSystem) (route : Route) (bytes : ByteArray) :
    Except PathError FileSystem := do
  match ← fs.slot route with
  | (_, none) => .error .isDirectory
  | (location, some name) =>
    if name = .up then .error .isDirectory
    else if maxNameBytes < name.byteCount then .error .tooLong
    else if fs.tree.hasDirAt (location ++ [name]) then .error .isDirectory
    else .ok (fs.put (.file bytes 0) (location ++ [name]))

end FileSystem

end DocAtlas
