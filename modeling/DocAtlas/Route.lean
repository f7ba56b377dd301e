import DocAtlas.Name
import DocAtlas.Path

/-!
# Routes

A route is a path as a file system takes it: a root and the names on the way. Every path is a route,
and so is every loose string whose names have bytes.
-/

namespace DocAtlas

open DocAtlas.Text

/-- A way through a file system. The root is empty, one slash or two slashes, and a route without a
root begins at the working directory. -/
structure Route where
  root : String
  names : List Name
deriving DecidableEq

/-- The route of a path. -/
def Path.route (path : Path) : Route :=
  { root := path.root, names := path.segments.map .text }

namespace Route

/-- The route that a loose string spells, nothing if one of its names has no bytes. -/
def ofLoose? (s : LooseString) : Option Route := do
  let names ← (Path.pieces (.char '/') (.char '.') s.letters).mapM Name.ofLetters?
  return { root := Path.rootOf (s.letters.takeWhile (· == .char '/')).length, names }

/-- Does a route hold a null character? Such a route leads nowhere. -/
def hasNull (route : Route) : Bool :=
  route.names.any Name.hasNull

/-- The number of bytes of a written route; the empty route is written as a dot. -/
def byteCount (route : Route) : Nat :=
  if route.root = "" && route.names.isEmpty then 1
  else
    route.names.foldl (fun count name => count + name.byteCount)
      (route.root.utf8ByteSize + (route.names.length - 1))

/-- A route followed by more names. -/
def append (route : Route) (names : List Name) : Route :=
  { route with names := route.names ++ names }

/-- A route followed by another one, which replaces it if it has a root of its own. -/
def join (route other : Route) : Route :=
  if other.root = "" then route.append other.names else other

end Route

end DocAtlas
