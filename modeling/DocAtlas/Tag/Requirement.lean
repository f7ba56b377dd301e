import DocAtlas.Text.Blank
import DocAtlas.Text.Search

/-!
# Requirements

A `@requires` value names a module of the platform by a link into its documentation, a module of
the project by a prefix that holds the word `module`, or something unknown.
-/

namespace DocAtlas.Tag

open DocAtlas.Text

/-- A classified `@requires` value of the comment with the given identity: the class `node-module`,
the prefix of a module reference or `unknown`, then what is required, and its address, its name
again or the whole value. -/
structure Requirement where
  id : String
  type : Option String
  name : Option String
  description : Option String
deriving DecidableEq

/-- Where the platform documents its own modules. -/
def platformDocs : String := "https://nodejs.org/api"

namespace Requirement

/-- A link `{@link address | name}` into the platform's documentation. -/
def ofLink (id : String) (value : List Char) : Requirement :=
  { id
    type := some "node-module"
    name := ofChars? (trim ((after " | ".toList value).filter (· != '\x7d')))
    description := ofChars? (trim (before " | ".toList (after "\x7b@link ".toList value))) }

/-- A reference `prefix:name`. -/
def ofReference (id : String) (kind name : List Char) : Requirement :=
  { id
    type := some (String.ofList (trim kind))
    name := ofChars? (trim name)
    description := ofChars? (trim name) }

/-- A value of no known form. -/
def ofUnknown (id : String) (value : List Char) : Requirement :=
  { id, type := some "unknown", name := none, description := ofChars? value }

/-- Classify a value. -/
def classify (id value : String) : Requirement :=
  let s := value.toList
  if occursIn platformDocs.toList s then ofLink id s
  else
    match cut? [':'] s with
    | some (kind, name) =>
      if occursIn "module".toList kind then ofReference id kind name else ofUnknown id s
    | none => ofUnknown id s

end Requirement

end DocAtlas.Tag
