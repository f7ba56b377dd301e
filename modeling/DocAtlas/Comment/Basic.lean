import DocAtlas.Comment.Block
import DocAtlas.Path
import DocAtlas.Tag.Line

/-!
# Comments

A comment block is read into a table of tags and a free text. A source file gives one comment per
block, each with an identity of its own.
-/

namespace DocAtlas

open DocAtlas.Text

/-- What one comment block says: its tags, its free text, and whether it could be read. -/
structure ParsedComment where
  tags : Tag.Table := []
  text : String := ""
  ok : Bool := true

namespace ParsedComment

/-- The reading of something that is no text at all. -/
def unreadable : ParsedComment :=
  { ok := false }

/-- Combine what the lines of a block carry. -/
def ofLines (lines : List Tag.Line) : ParsedComment :=
  { tags := Tag.Table.ofOccurrences (lines.filterMap Tag.Line.occurrence?)
    text := String.ofList (trim (joinWith ['\n'] (lines.filterMap Tag.Line.text?))) }

/-- Read the characters of a comment block. -/
def ofChars (block : List Char) : ParsedComment :=
  ofLines ((lines block).map Tag.Line.ofChars)

/-- Read a comment block. -/
def ofString (block : String) : ParsedComment :=
  ofChars block.toList

end ParsedComment

/-- A file to be documented. Dates are texts in ISO form. -/
structure SourceFile where
  path : String
  content : String
  created : String
  modified : String

/-- A comment block with the file it stands in. The file name is the last segment of the file's
path, and the text is the free text of the block. -/
structure Comment where
  id : String
  fileName : String
  filePath : String
  tags : Tag.Table
  created : String
  modified : String
  text : String

namespace Comment

/-- The comment of a block of a file. -/
def ofBlock (id : String) (source : SourceFile) (block : List Char) : Comment :=
  let parsed := ParsedComment.ofChars block
  { id
    fileName := (Path.ofString source.path).name
    filePath := source.path
    tags := parsed.tags
    created := source.created
    modified := source.modified
    text := parsed.text }

/-- The blocks of several files in order, each with its file. -/
def blocksOf (style : Style) (sources : List SourceFile) : List (SourceFile × List Char) :=
  sources.flatMap fun source =>
    (style.blocks source.content.toList).map fun block => (source, block)

/-- The comments of several files in order. The supply names the comments by their position. -/
def extract (supply : Nat → String) (style : Style) (sources : List SourceFile) : List Comment :=
  (blocksOf style sources).mapIdx fun index (source, block) => ofBlock (supply index) source block

end Comment

end DocAtlas
