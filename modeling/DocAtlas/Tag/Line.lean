import DocAtlas.Tag.Table
import DocAtlas.Text.Blank
import DocAtlas.Text.Search
import DocAtlas.Text.Word

/-!
# Lines of a comment block

A line of a block carries a tag, a piece of free text, or nothing. It carries a tag if somewhere
in it an `@` is followed by a name, a blank and a value; the first such place counts. Otherwise
it carries text if somewhere in it a `*` is followed by a blank and a text that does not begin
with `@`.
-/

namespace DocAtlas.Tag

open DocAtlas.Text

/-- What a line of a comment block carries: a tag with its value, a piece of free text, or neither
of them. -/
inductive Line where
  | tag (occurrence : Occurrence)
  | text (content : List Char)
  | bare

namespace Line

/-- The part of a line that is read: without blanks at the end, a closing delimiter, and the
blanks before that. -/
def body (line : List Char) : List Char :=
  match (trimEnd line).reverse with
  | '/' :: '*' :: rest => trimEnd rest.reverse
  | _ => trimEnd line

/-- The text after at least one blank, nothing if there is no blank or no text. -/
def afterBlanks : List Char → Option (List Char)
  | [] => none
  | c :: rest =>
    if isBlank c then
      match trimStart rest with
      | [] => none
      | found => some found
    else none

/-- The name and the value that follow an `@`. -/
def tagAfterAt (s : List Char) : Option (List Char × List Char) :=
  match s.takeWhile isWord with
  | [] => none
  | name => (afterBlanks (s.dropWhile isWord)).map fun value => (name, value)

/-- The name and the value of the first tag of a line. -/
def findTag : List Char → Option (List Char × List Char)
  | [] => none
  | c :: rest =>
    if c = '@' then
      match tagAfterAt rest with
      | some found => some found
      | none => findTag rest
    else findTag rest

/-- The text after the first `*` that is followed by a blank and a text. -/
def findText : List Char → Option (List Char)
  | [] => none
  | c :: rest =>
    if c = '*' then
      match afterBlanks rest with
      | some found => some found
      | none => findText rest
    else findText rest

/-- What the body of a line carries. -/
def ofBody (body : List Char) : Line :=
  match findTag body with
  | some (name, value) =>
    .tag
      { line := String.ofList (trim body)
        name := String.ofList name
        description := String.ofList value }
  | none =>
    match findText body with
    | none => .bare
    | some found => if found.head? = some '@' then .bare else .text found

/-- What a line carries. -/
def ofChars (line : List Char) : Line :=
  ofBody (body line)

/-- The tag of a line. -/
def occurrence? : Line → Option Occurrence
  | tag o => some o
  | _ => none

/-- The free text of a line. -/
def text? : Line → Option (List Char)
  | text s => some s
  | _ => none

end Line

end DocAtlas.Tag
