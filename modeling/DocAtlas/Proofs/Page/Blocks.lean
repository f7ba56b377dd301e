import DocAtlas.Page.Markdown
import DocAtlas.Proofs.Atlas.Members

/-!
# Blocks of a Markdown page

A Markdown page is a sequence of blocks of lines with an empty line after each of them. A section has
a fixed order of blocks, from the title of its entry to the rule that closes it, and leaves out those
that the entry has nothing to say in. The outline of a page says which sections stand on it under
which headings, and with it the page is known line by line.
-/

namespace DocAtlas.Page

open DocAtlas.Text

/-- The lines of a block that may be left out, with the empty line after it. -/
def laid (block : Option (List String)) : List String :=
  block.elim [] (· ++ [""])

/-- A text that there is something to see of. -/
def visible (text : Option String) : Option String :=
  text.filter (· ≠ "")

/-- The block of a list, left out if the list has no items. -/
def listBlock {α : Type} (label : String) (line : α → String) (items : List α) :
    Option (List String) :=
  if items = [] then none else some (("**" ++ label ++ ":**") :: items.map line)

/-- A parameter as a list shows it: the name or a question mark, the type and the description. -/
def parameterItem (p : Parameter) : String :=
  "- `" ++ (visible p.name).getD "?" ++ "`" ++
    (visible p.type).elim "" (fun type => " `" ++ type ++ "`") ++
    (visible p.description).elim "" (fun description => ": " ++ description)

/-- A requirement as a list shows it: the class, and the name or the description. -/
def requirementItem (r : Tag.Requirement) : String :=
  "- " ++ r.type.getD "None" ++ ": " ++ ((visible r.name).or r.description).getD "None"

/-- What is returned, without the blanks at its end. -/
def returnsLine (result : Tag.Result) : String :=
  trimmedEnd
    ("**Returns:** " ++ (visible result.type).elim "" (fun type => "`" ++ type ++ "` ") ++
      result.description.getD "")

/-- The blocks of the section of an entry. -/
def sectionBlocks (entry : Entry) : List (Option (List String)) :=
  [some ["### " ++ entry.title],
    entry.type.map fun type =>
      ["*" ++ type.kind ++ "*" ++
        (visible (some type.description)).elim "" (fun description => " `" ++ description ++ "`")],
    (visible entry.summary).map ([·]),
    (visible entry.description).map ([·]),
    (visible (some entry.text)).map ([·]),
    listBlock "Parameters" parameterItem entry.props,
    listBlock "Arguments" parameterItem entry.arguments,
    entry.returns.map ([returnsLine ·]),
    listBlock "Requires" requirementItem entry.requires,
    if entry.example_ = [] then none else some ("**Example:**" :: "```" :: entry.example_ ++ ["```"]),
    some ["*Source: " ++ entry.origin.filePath ++ "*"],
    some ["---"]]

/-- The row of a member in the table below a heading. -/
def memberItem (member : Entry) : String :=
  "| [`" ++ member.title ++ "`](#" ++ anchor member.title ++ ") | " ++ member.kind.getD "" ++ " | " ++
    cell (member.summary.getD "") ++ " |"

/-- The blocks of a heading: its first namespace, its summary and the table of its members. -/
def headingBlocks (heading : Entry) (members : List Entry) : List (Option (List String)) :=
  [some ["## " ++ heading.namespaces.headD ""],
    (visible heading.summary).map ([·]),
    if members = [] then none
    else some ("| Name | Kind | Summary |" :: "|------|------|---------|" :: members.map memberItem)]

/-- The page shows the given chapters, each with its heading and the sections of its entries, and then
the sections of the given other entries under a heading of their own, if there are any. -/
def HasOutline (atlas : Atlas) (title : String) (found : List Chapter) (rest : List Entry) : Prop :=
  markdown atlas title = "\n".intercalate
    (([some ["<!-- AUTO-GENERATED. DO NOT EDIT. Run `build-docs` to regenerate. -->"],
        some ["# " ++ title],
        if found = [] then some ["*No root items found. Add @namespace tags to comment blocks.*"]
        else none] ++
      (found.flatMap fun chapter =>
        headingBlocks chapter.heading (atlas.linked chapter.heading) ++
          chapter.entries.flatMap sectionBlocks) ++
      if rest = [] then [] else some ["## Other"] :: rest.flatMap sectionBlocks).flatMap laid)

/-! ## What is written in blocks -/

/-- A text that is not empty is visible. -/
theorem bind_nonempty? (text : Option String) : text.bind nonempty? = visible text := by
  cases text with
  | none => rfl
  | some s => by_cases h : s = "" <;> simp [nonempty?, visible, Option.filter_some, h]

/-- The paragraph of a text is the block of the text. -/
theorem textParagraph_eq (text : Option String) :
    textParagraph text = laid ((visible text).map ([·])) := by
  rw [textParagraph, bind_nonempty?]
  cases visible text <;> rfl

/-- The line of a parameter is its item. -/
theorem parameterLine_eq (p : Parameter) : parameterLine p = parameterItem p := by
  rw [parameterLine, parameterItem, bind_nonempty?, bind_nonempty?, bind_nonempty?]
  cases visible p.type <;> cases visible p.description <;> rfl

/-- The line of a requirement is its item. -/
theorem requirementLine_eq_item (r : Tag.Requirement) : requirementLine r = requirementItem r := by
  rw [requirementLine, bind_nonempty?]
  rfl

/-- The list of parameters is the block of their items. -/
theorem parameterList_eq (label : String) (parameters : List Parameter) :
    parameterList label parameters = laid (listBlock label parameterItem parameters) := by
  cases parameters with
  | nil => rfl
  | cons first rest => simp [parameterList, listBlock, laid, parameterLine_eq]

/-- The list of requirements is the block of their items. -/
theorem requirementList_eq (requirements : List Tag.Requirement) :
    requirementList requirements = laid (listBlock "Requires" requirementItem requirements) := by
  cases requirements with
  | nil => rfl
  | cons first rest => simp [requirementList, listBlock, laid, requirementLine_eq_item]

/-- The paragraph of a type is its block. -/
theorem typeParagraph_eq (type : Option TypeNote) :
    typeParagraph type = laid (type.map fun type =>
      ["*" ++ type.kind ++ "*" ++
        (visible (some type.description)).elim ""
          (fun description => " `" ++ description ++ "`")]) := by
  cases type with
  | none => rfl
  | some type =>
    by_cases h : type.description = "" <;>
      simp [typeParagraph, paragraph, visible, Option.filter_some, laid, h]

/-- The paragraph of what is returned is its block. -/
theorem returnsParagraph_eq (result : Option Tag.Result) :
    returnsParagraph result = laid (result.map ([returnsLine ·])) := by
  cases result with
  | none => rfl
  | some result =>
    rw [returnsParagraph, bind_nonempty?, Option.map_some, returnsLine]
    cases visible result.type <;> rfl

/-- The examples are their block. -/
theorem exampleBlock_eq (examples : List String) :
    exampleBlock examples =
      laid (if examples = [] then none
        else some ("**Example:**" :: "```" :: examples ++ ["```"])) := by
  cases examples <;> simp [exampleBlock, laid]

/-- A section is written block by block. -/
theorem section_eq (entry : Entry) : section_ entry = (sectionBlocks entry).flatMap laid := by
  simp only [section_, sectionBlocks, typeParagraph_eq, textParagraph_eq, parameterList_eq,
    returnsParagraph_eq, requirementList_eq, exampleBlock_eq, List.flatMap_cons, List.flatMap_nil,
    List.append_nil, List.append_assoc]
  rfl

/-- Sections are written block by block. -/
theorem flatMap_section_eq (entries : List Entry) :
    entries.flatMap section_ = (entries.flatMap sectionBlocks).flatMap laid := by
  rw [List.flatMap_assoc]
  exact List.flatMap_congr fun entry _ => section_eq entry

/-- The members that a page lists are those that the edges of the entry lead to. -/
theorem membersOf_eq_linked (atlas : Atlas) (entry : Entry) :
    membersOf atlas entry = atlas.linked entry :=
  Atlas.members_eq_linked atlas entry

/-- The table of members is its block. -/
theorem memberTable_eq (members : List Entry) :
    memberTable members = laid (if members = [] then none
      else some ("| Name | Kind | Summary |" :: "|------|------|---------|" ::
        members.map memberItem)) := by
  cases members with
  | nil => rfl
  | cons first rest => rfl

/-- A chapter is written block by block. -/
theorem chapterLines_eq (atlas : Atlas) (chapter : Chapter) :
    chapterLines atlas chapter =
      (headingBlocks chapter.heading (atlas.linked chapter.heading) ++
        chapter.entries.flatMap sectionBlocks).flatMap laid := by
  simp only [chapterLines, headingBlocks, membersOf_eq_linked, textParagraph_eq, memberTable_eq,
    flatMap_section_eq, List.flatMap_append, List.flatMap_cons, List.flatMap_nil, List.append_nil,
    List.append_assoc]
  rfl

/-- The other entries are written block by block. -/
theorem otherLines_eq (rest : List Entry) :
    otherLines rest =
      (if rest = [] then [] else some ["## Other"] :: rest.flatMap sectionBlocks).flatMap laid := by
  cases rest with
  | nil => rfl
  | cons first others =>
    rw [otherLines, flatMap_section_eq]
    rfl

/-! ## The outline of a page -/

/-- The chapters of the page of an atlas. -/
def pageChapters (atlas : Atlas) : List Chapter :=
  chapters atlas [] atlas.headings

/-- The entries that the page of an atlas shows after its chapters. -/
def pageOthers (atlas : Atlas) : List Entry :=
  others atlas (pageChapters atlas)

/-- The page of an atlas shows its chapters and then the other entries. -/
theorem hasOutline (atlas : Atlas) (title : String) :
    HasOutline atlas title (pageChapters atlas) (pageOthers atlas) := by
  have hchapters : (pageChapters atlas).flatMap (chapterLines atlas) =
      ((pageChapters atlas).flatMap fun chapter =>
        headingBlocks chapter.heading (atlas.linked chapter.heading) ++
          chapter.entries.flatMap sectionBlocks).flatMap laid := by
    rw [List.flatMap_assoc]
    exact List.flatMap_congr fun chapter _ => chapterLines_eq atlas chapter
  have hnone : (if (pageChapters atlas).isEmpty then
        paragraph "*No root items found. Add @namespace tags to comment blocks.*" else []) =
      laid (if pageChapters atlas = [] then
        some ["*No root items found. Add @namespace tags to comment blocks.*"] else none) := by
    cases pageChapters atlas <;> rfl
  have hlines : markdownLines atlas title =
      paragraph "<!-- AUTO-GENERATED. DO NOT EDIT. Run `build-docs` to regenerate. -->" ++
        paragraph ("# " ++ title) ++
        (if (pageChapters atlas).isEmpty then
          paragraph "*No root items found. Add @namespace tags to comment blocks.*" else []) ++
        (pageChapters atlas).flatMap (chapterLines atlas) ++ otherLines (pageOthers atlas) := rfl
  rw [HasOutline, markdown, hlines, hchapters, hnone, otherLines_eq]
  simp only [List.flatMap_append, List.flatMap_cons, List.flatMap_nil, List.append_nil,
    List.append_assoc]
  rfl

end DocAtlas.Page
