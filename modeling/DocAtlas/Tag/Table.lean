/-!
# Tag tables

A comment block carries tags such as `@param`. Their occurrences are grouped by name: the names in
order of first appearance, the occurrences of a name in source order.
-/

namespace DocAtlas.Tag

/-- One tag of a comment block: the line it stands on, without surrounding blanks and a closing
delimiter, its name with its case, and the rest of the line after the name. -/
structure Occurrence where
  line : String
  name : String
  description : String
deriving DecidableEq

/-- Occurrences by name. -/
abbrev Table := List (String × List Occurrence)

namespace Table

/-- Append an occurrence to the entry of its name, or a new entry if the name is new. -/
def add (o : Occurrence) : Table → Table
  | [] => [(o.name, [o])]
  | (name, found) :: rest =>
    if name = o.name then (name, found ++ [o]) :: rest else (name, found) :: add o rest

/-- The table of a sequence of occurrences. -/
def ofOccurrences (occurrences : List Occurrence) : Table :=
  occurrences.foldl (fun table o => table.add o) []

/-- The occurrences of a name, none if the table has no such entry. -/
def occurrences (table : Table) (name : String) : List Occurrence :=
  (table.lookup name).getD []

/-- The values of a name in source order. -/
def values (table : Table) (name : String) : List String :=
  (table.occurrences name).map Occurrence.description

/-- The first value of a name, nothing if there is none or it is empty. -/
def value? (table : Table) (name : String) : Option String :=
  (table.values name).head?.filter (· ≠ "")

end Table

end DocAtlas.Tag
