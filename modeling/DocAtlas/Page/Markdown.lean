import DocAtlas.Atlas.Basic
import DocAtlas.Element.Field
import DocAtlas.Text.Lowercase

/-!
# Markdown pages

A Markdown page has one chapter per heading, with a section for every entry that can be reached
from it and has not had its section before. What no heading reaches is listed at the end.
-/

namespace DocAtlas.Page

open DocAtlas.Text

/-- The anchor of a title: lower case, without dots, with dashes for spaces. -/
def anchor (title : String) : String :=
  String.ofList
    (((lower title.toList).filter (· != '.')).map fun c => if c = ' ' then '-' else c)

/-- A text in a table cell. -/
def cell (s : String) : String :=
  String.ofList (s.toList.flatMap fun c => if c = '|' then ['\\', '|'] else [c])

/-- A line and an empty one after it. -/
def paragraph (line : String) : List String :=
  [line, ""]

/-- The paragraph of a text that may be absent or empty. -/
def textParagraph (text : Option String) : List String :=
  match text.bind nonempty? with
  | none => []
  | some text => paragraph text

/-- The line of a parameter. -/
def parameterLine (p : Parameter) : String :=
  "- `" ++ (p.name.bind nonempty?).getD "?" ++ "`" ++
    (match p.type.bind nonempty? with
      | none => ""
      | some type => " `" ++ type ++ "`") ++
    match p.description.bind nonempty? with
    | none => ""
    | some description => ": " ++ description

/-- The list of parameters under a label. -/
def parameterList (label : String) (parameters : List Parameter) : List String :=
  if parameters.isEmpty then []
  else ("**" ++ label ++ ":**") :: parameters.map parameterLine ++ [""]

/-- The paragraph of a type. -/
def typeParagraph : Option TypeNote → List String
  | none => []
  | some type =>
    paragraph
      ("*" ++ type.kind ++ "*" ++
        if type.description = "" then "" else " `" ++ type.description ++ "`")

/-- The paragraph of what is returned. -/
def returnsParagraph : Option Tag.Result → List String
  | none => []
  | some result =>
    paragraph
      (trimmedEnd
        ("**Returns:** " ++
          (match result.type.bind nonempty? with
            | none => ""
            | some type => "`" ++ type ++ "` ") ++
          result.description.getD ""))

/-- The line of a requirement. -/
def requirementLine (r : Tag.Requirement) : String :=
  "- " ++ spelled r.type ++ ": " ++ spelled ((r.name.bind nonempty?).or r.description)

/-- The list of requirements. -/
def requirementList (requirements : List Tag.Requirement) : List String :=
  if requirements.isEmpty then []
  else "**Requires:**" :: requirements.map requirementLine ++ [""]

/-- The block of examples. -/
def exampleBlock (examples : List String) : List String :=
  if examples.isEmpty then [] else ["**Example:**", "```"] ++ examples ++ ["```", ""]

/-- The section of an entry. -/
def section_ (entry : Entry) : List String :=
  paragraph ("### " ++ entry.title) ++
  typeParagraph entry.type ++
  textParagraph entry.summary ++
  textParagraph entry.description ++
  textParagraph (some entry.text) ++
  parameterList "Parameters" entry.props ++
  parameterList "Arguments" entry.arguments ++
  returnsParagraph entry.returns ++
  requirementList entry.requires ++
  exampleBlock entry.example_ ++
  paragraph ("*Source: " ++ entry.origin.filePath ++ "*") ++
  paragraph "---"

/-- The members of an entry that a page lists. -/
def membersOf (atlas : Atlas) (entry : Entry) : List Entry :=
  entry.members atlas.get?

/-- The row of a member in the table of a chapter. -/
def memberRow (member : Entry) : String :=
  "| [`" ++ member.title ++ "`](#" ++ anchor member.title ++ ") | " ++
    (member.kind.getD "") ++ " | " ++ cell (member.summary.getD "") ++ " |"

/-- The table of a chapter. -/
def memberTable (members : List Entry) : List String :=
  if members.isEmpty then []
  else
    ["| Name | Kind | Summary |", "|------|------|---------|"] ++ members.map memberRow ++ [""]

/-- What is still to be visited: entries that have no section yet, and waiting entries that are
foreign to the atlas. -/
def unvisited (atlas : Atlas) (rendered : List String) (waiting : List Entry) : Nat :=
  atlas.entries.countP (fun entry => entry.id ∉ rendered) +
    waiting.countP fun entry => entry ∉ atlas.entries

/-- Visiting an entry leaves less to be visited. -/
theorem unvisited_visit_lt (atlas : Atlas) {rendered : List String} {entry : Entry}
    (waiting : List Entry) (h : entry.id ∉ rendered) :
    unvisited atlas (entry.id :: rendered) (membersOf atlas entry ++ waiting) <
      unvisited atlas rendered (entry :: waiting) := by
  have hmembers : (membersOf atlas entry).countP (fun e => e ∉ atlas.entries) = 0 := by
    rw [List.countP_eq_zero]
    intro member hmember
    simpa using Entry.mem_of_mem_members (fun _ _ => Atlas.mem_of_get?) hmember
  have hweaker : ∀ x ∈ atlas.entries, decide (x.id ∉ entry.id :: rendered) = true →
      decide (x.id ∉ rendered) = true := by
    intro x _ hx
    simp only [decide_eq_true_eq, List.mem_cons, not_or] at hx ⊢
    exact hx.2
  unfold unvisited
  rw [List.countP_append, hmembers, List.countP_cons]
  by_cases hmem : entry ∈ atlas.entries
  · have := countP_lt_countP hweaker hmem (by simp) (by simpa using h)
    omega
  · have := List.countP_mono_left hweaker
    simp only [hmem, not_false_eq_true, decide_true, ↓reduceIte]
    omega

/-- Skipping an entry does not add to what is to be visited. -/
theorem unvisited_skip_le (atlas : Atlas) (rendered : List String) (entry : Entry)
    (waiting : List Entry) :
    unvisited atlas rendered waiting ≤ unvisited atlas rendered (entry :: waiting) := by
  unfold unvisited
  rw [List.countP_cons]
  omega

/-- The entries that get a section, starting from the entries that wait: each one that has none
yet, followed by its members, before the others that wait. -/
def tour (atlas : Atlas) (rendered : List String) : List Entry → List Entry
  | [] => []
  | entry :: waiting =>
    if h : entry.id ∈ rendered then
      have := unvisited_skip_le atlas rendered entry waiting
      tour atlas rendered waiting
    else
      have := unvisited_visit_lt atlas waiting h
      entry :: tour atlas (entry.id :: rendered) (membersOf atlas entry ++ waiting)
termination_by waiting => (unvisited atlas rendered waiting, waiting.length)
decreasing_by
  · rcases Nat.lt_or_eq_of_le this with h | h
    · exact Prod.Lex.left _ _ h
    · rw [h]
      exact Prod.Lex.right _ (by simp)
  · exact Prod.Lex.left _ _ this

/-- A heading with the entries that get their sections under it. -/
structure Chapter where
  heading : Entry
  entries : List Entry

/-- The chapters of headings in order; an entry gets its section in the first chapter that
reaches it. -/
def chapters (atlas : Atlas) (rendered : List String) : List Entry → List Chapter
  | [] => []
  | heading :: rest =>
    let entries := tour atlas rendered [heading]
    { heading, entries } :: chapters atlas (entries.map Entry.id ++ rendered) rest

/-- The lines of a chapter. -/
def chapterLines (atlas : Atlas) (chapter : Chapter) : List String :=
  paragraph ("## " ++ chapter.heading.group) ++
  textParagraph chapter.heading.summary ++
  memberTable (membersOf atlas chapter.heading) ++
  chapter.entries.flatMap section_

/-- The entries that no chapter holds. -/
def others (atlas : Atlas) (found : List Chapter) : List Entry :=
  let rendered := found.flatMap fun chapter => chapter.entries.map Entry.id
  atlas.entries.filter fun entry => entry.id ∉ rendered

/-- The lines of the entries that no chapter holds. -/
def otherLines (entries : List Entry) : List String :=
  if entries.isEmpty then [] else paragraph "## Other" ++ entries.flatMap section_

/-- All lines of a page. -/
def markdownLines (atlas : Atlas) (title : String) : List String :=
  let found := chapters atlas [] atlas.headings
  paragraph "<!-- AUTO-GENERATED. DO NOT EDIT. Run `build-docs` to regenerate. -->" ++
  paragraph ("# " ++ title) ++
  (if found.isEmpty then
    paragraph "*No root items found. Add @namespace tags to comment blocks.*"
  else []) ++
  found.flatMap (chapterLines atlas) ++
  otherLines (others atlas found)

/-- The Markdown page of an atlas. -/
def markdown (atlas : Atlas) (title : String) : String :=
  "\n".intercalate (markdownLines atlas title)

end DocAtlas.Page
