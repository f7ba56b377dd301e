import DocAtlas.Comment.Basic
import DocAtlas.FileSystem
import DocAtlas.Number.Timestamp
import DocAtlas.Text.Decode

/-!
# Scanning

Scanning collects the source files below a target: those of a wanted type whose path below the
target holds no ignored fragment and whose bytes are UTF-8. The files are ordered by their paths,
segment by segment.

Two things are left open. Names that are no text have no place in a path, so a file on the way to
which one stands is passed over: what is said of scans is about trees whose names are texts. And
trees do not keep when a file was created; the time of its last change stands for it.
-/

namespace DocAtlas

open DocAtlas.Text

/-- Does a path hold one of the fragments? Empty fragments do not count. -/
def Path.isIgnored (path : Path) (fragments : List String) : Bool :=
  fragments.any fun fragment =>
    fragment ≠ "" && occursIn fragment.toList path.toString.toList

/-- Is the extension of a path one of the types? -/
def Path.hasType (path : Path) (types : List String) : Bool :=
  path.extension ∈ types

/-- The order of paths, segment by segment. -/
def segmentsLe : List String → List String → Bool
  | [], _ => true
  | _ :: _, [] => false
  | a :: as, b :: bs => if a = b then segmentsLe as bs else a < b

/-- A file below a target: its location below the target, its bytes and its last change. -/
structure FoundFile where
  location : List String
  bytes : ByteArray
  modified : Int

/-- The files below a directory that have a path. -/
def Tree.foundFiles (tree : Tree) : List FoundFile :=
  tree.files.filterMap fun (location, bytes, modified) =>
    (location.mapM Name.text?).map fun location => { location, bytes, modified }

/-- The files below a directory in order. -/
def Tree.sortedFiles (tree : Tree) : List FoundFile :=
  tree.foundFiles.mergeSort fun a b => segmentsLe a.location b.location

namespace FoundFile

/-- Is a file wanted, judged by its location? -/
def isWanted (file : FoundFile) (ignore types : List String) : Bool :=
  let path : Path := { root := "", segments := file.location }
  !path.isIgnored ignore && path.hasType types

/-- The source file at a path, nothing if its bytes are no text. As nobody knows when the file was
created, it counts as created at its last change. -/
def toSource? (file : FoundFile) (path : Path) : Option SourceFile :=
  (decode? file.bytes).map fun content =>
    { path := path.toString
      content
      created := Number.isoTimestamp file.modified
      modified := Number.isoTimestamp file.modified }

end FoundFile

/-- Why nothing is scanned: the target does not exist, or its path or one below it is too long. -/
inductive ScanError where
  | missing (path : String)
  | unusable
deriving DecidableEq

/-- The text of a scan error. -/
def ScanError.message : ScanError → String
  | missing path => "Target path does not exist: " ++ path
  | unusable => "Target path is too long"

/-- The source files of a target. A target that is a file is judged by its name alone. -/
def sourcesOf (target : Path) (ignore types : List String) : Tree → List SourceFile
  | .file bytes modified =>
    let file : FoundFile := { location := [target.name], bytes, modified }
    if file.isWanted ignore types then (file.toSource? target).toList else []
  | .dir entries =>
    ((Tree.dir entries).sortedFiles.filter (·.isWanted ignore types)).filterMap fun file =>
      file.toSource? (target.append file.location)

/-- Collect the source files of a target. Nothing is collected if the path of anything below the
target is too long. -/
def FileSystem.scan (fs : FileSystem) (target : String) (ignore types : List String) :
    Except ScanError (List SourceFile) :=
  let path := Path.ofString target
  match fs.find path.route with
  | .ok found =>
    if found.locations.all fun location => admits (path.route.append location) then
      .ok (sourcesOf path ignore types found)
    else .error .unusable
  | .error .tooLong => .error .unusable
  | .error _ => .error (.missing path.toString)

end DocAtlas
