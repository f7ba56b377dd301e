import DocAtlas.Atlas.Coverage
import DocAtlas.Atlas.Link
import DocAtlas.Atlas.Review
import DocAtlas.Element.Forest
import DocAtlas.Element.Numbering
import DocAtlas.Identity
import DocAtlas.Json.Record
import DocAtlas.Json.Writer
import DocAtlas.Keyed
import DocAtlas.Options.Basic
import DocAtlas.Page.Html
import DocAtlas.Page.Markdown

/-!
# Builds

A build holds everything that a run makes out of its sources, and gives the documents of the
wanted forms.
-/

namespace DocAtlas

open DocAtlas.Element

/-- Everything that a run makes. -/
structure Build where
  sources : List SourceFile
  comments : List Comment
  atlas : Atlas
  review : Review
  coverage : Coverage
  forest : List Node

namespace Build

/-- Build from sources. -/
def ofSources (supply : Supply) (strict : Bool) (sources : List SourceFile) : Build :=
  let comments := Comment.extract supply.comment .doc sources
  let atlas := Atlas.link comments
  { sources
    comments
    atlas
    review := atlas.review strict
    coverage := atlas.coverage
    forest := Node.numberAll supply.element atlas.forest }

end Build

/-- Documents by file name, in order. A document has no text if half of a surrogate pair would stand
alone in it, since such a text has no encoding. -/
abbrev Documents := List (String × Option String)

namespace Build

/-- The JSON documents of a build. -/
def jsonDocuments (build : Build) (name : String) : Documents :=
  [(name ++ ".json", some (Json.arr (build.comments.map Comment.toJson)).write),
   ("processed.json", some (Json.arr (build.atlas.entries.map Entry.toJson)).write),
   ("namespaces.json", some (Json.arr (build.atlas.namespaces.map Declaration.toJson)).write),
   ("modules.json", some (Json.arr (build.atlas.modules.map Declaration.toJson)).write),
   ("files.json", some (Json.arr (build.atlas.files.map FileDeclaration.toJson)).write),
   ("elements.json", some (Json.arr (Node.allToJson build.forest)).write)]

/-- The Markdown page of a build. -/
def markdown? (build : Build) (options : Options) : Option String :=
  options.title.toString?.map (Page.markdown build.atlas)

/-- The HTML page of a build. -/
def html? (build : Build) (options : Options) : Option String := do
  let title ← options.title.toString?
  let settings ← options.page.map? Text.LooseString.toString?
  return Page.html title settings build.forest

/-- The documents of one form. -/
def documentsOf (build : Build) (options : Options) : Format → Documents
  | .json => build.jsonDocuments options.outputName
  | .md => [(options.outputName ++ ".md", build.markdown? options)]
  | .html => [(options.outputName ++ ".html", build.html? options)]

/-- The documents of the wanted forms: JSON first, then Markdown, then HTML. Of two documents
with one name the later one is kept. -/
def documents (build : Build) (options : Options) : Documents :=
  Keyed.ofPairs
    (([.json, .md, .html].filter (· ∈ options.formats)).flatMap (build.documentsOf options))

end Build

end DocAtlas
