import DocAtlas.Keyed
import DocAtlas.Name

/-!
# File trees

A file tree is a file or a directory with everything below it. A place in a tree is given by its
location, the names on the way down.
-/

namespace DocAtlas

/-- A file with its bytes and the time of its last change, in seconds since 1970, or a directory. -/
inductive Tree where
  | file (bytes : ByteArray) (modified : Int)
  | dir (entries : List (Name × Tree))

namespace Tree

/-- The earliest time of a change that is kept. -/
def earliest : Int := -2147483648

/-- The latest time of a change that is kept. -/
def latest : Int := 15032385535

/-- A file that was changed at some time. A time that cannot be kept is replaced by the nearest one
that can. -/
def changedFile (bytes : ByteArray) (time : Int) : Tree :=
  file bytes (max earliest (min time latest))

/-- The entries of a directory. -/
def entries? : Tree → Option (List (Name × Tree))
  | file .. => none
  | dir entries => some entries

/-- Is it a directory? -/
def isDir : Tree → Bool
  | file .. => false
  | dir _ => true

/-- What stands at a location. -/
def at? (tree : Tree) : List Name → Option Tree
  | [] => some tree
  | name :: rest =>
    match tree with
    | file .. => none
    | dir entries =>
      match entries.lookup name with
      | none => none
      | some child => child.at? rest

/-- Is there a directory at a location? -/
def hasDirAt (tree : Tree) (location : List Name) : Bool :=
  ((tree.at? location).map isDir).getD false

/-- Put something at a location, making the directories on the way. -/
def put (tree : Tree) (new : Tree) : List Name → Tree
  | [] => new
  | name :: rest =>
    let entries := tree.entries?.getD []
    let child := (entries.lookup name).getD (dir [])
    dir (Keyed.put name (child.put new rest) entries)

mutual

/-- The files of a tree with their locations. -/
def files : Tree → List (List Name × ByteArray × Int)
  | file bytes modified => [([], bytes, modified)]
  | dir entries => filesOf entries

/-- The files below the entries of a directory. -/
def filesOf : List (Name × Tree) → List (List Name × ByteArray × Int)
  | [] => []
  | (name, tree) :: rest =>
    (tree.files.map fun (location, found) => (name :: location, found)) ++ filesOf rest

end

mutual

/-- The locations of all files and directories below a tree. -/
def locations : Tree → List (List Name)
  | file .. => []
  | dir entries => locationsOf entries

/-- The locations of the entries of a directory and of everything below them. -/
def locationsOf : List (Name × Tree) → List (List Name)
  | [] => []
  | (name, tree) :: rest => [name] :: tree.locations.map (name :: ·) ++ locationsOf rest

end

end Tree

end DocAtlas
