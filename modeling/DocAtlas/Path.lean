import DocAtlas.Text.Search

/-!
# Paths

A path is a root and a sequence of segments. Empty segments and `.` carry no meaning and are
dropped; `..` is a segment like any other until the path meets a file tree. A path beginning with
exactly two slashes keeps both.
-/

namespace DocAtlas

open DocAtlas.Text

/-- A path in normal form. The root is empty, one slash or two slashes. -/
structure Path where
  root : String
  segments : List String
deriving DecidableEq

namespace Path

/-- The root that a number of leading slashes stands for. -/
def rootOf : Nat → String
  | 0 => ""
  | 2 => "//"
  | _ => "/"

/-- The pieces between slashes that carry a meaning. -/
def pieces {α : Type} [DecidableEq α] (slash dot : α) (s : List α) : List (List α) :=
  (splitWhere (· == slash) s).filter fun piece => piece ≠ [] && piece ≠ [dot]

/-- The normal form of a path text. -/
def ofString (s : String) : Path :=
  { root := rootOf (s.toList.takeWhile (· == '/')).length
    segments := (pieces '/' '.' s.toList).map String.ofList }

/-- The text of a path; the empty path is the working directory. -/
def toString (path : Path) : String :=
  if path.root = "" && path.segments.isEmpty then "."
  else path.root ++ "/".intercalate path.segments

/-- The last segment, empty if there is none. -/
def name (path : Path) : String :=
  path.segments.getLast?.getD ""

/-- The part of a file name after its last dot. It is empty if there is no dot, or if the last
dot is the first or the last character. -/
def extensionOf (name : String) : String :=
  match cut? ['.'] name.toList.reverse with
  | none => ""
  | some (tail, stem) => if tail = [] || stem = [] then "" else String.ofList tail.reverse

/-- The extension of the last segment. -/
def extension (path : Path) : String :=
  extensionOf path.name

/-- Does a path hold a null character? Such a path names nothing. -/
def hasNull (path : Path) : Bool :=
  path.segments.any fun segment => segment.toList.contains (Char.ofNat 0)

/-- A path followed by more segments. -/
def append (path : Path) (segments : List String) : Path :=
  { path with segments := path.segments ++ segments }

/-- A path followed by another one, which replaces it if it has a root of its own. -/
def join (path other : Path) : Path :=
  if other.root = "" then path.append other.segments else other

end Path

end DocAtlas
