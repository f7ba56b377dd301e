import DocAtlas.Element.Basic
import DocAtlas.Page.Settings

/-!
# HTML pages

A forest of elements is written as one HTML document: the navigation links of all roots go into
the header, their containers into the main part. Every text that comes from a source is escaped.
A rendered node without attributes makes the whole page an error page.
-/

namespace DocAtlas.Page

open DocAtlas.Element

/-- A character as it is written in markup. -/
def escapeChar (c : Char) : List Char :=
  if c = '&' then "&amp;".toList
  else if c = '<' then "&lt;".toList
  else if c = '>' then "&gt;".toList
  else if c = '\x22' then "&quot;".toList
  else if c = '\x27' then "&#x27;".toList
  else [c]

/-- A text as it is written in markup. -/
def escape (s : String) : String :=
  String.ofList (s.toList.flatMap escapeChar)

/-- The first attribute that is missed when a node without attributes is rendered. -/
inductive Missing where
  | subGroup
  | value
  | role
deriving DecidableEq

/-- How error pages name an attribute. -/
def Missing.name : Missing → String
  | subGroup => "sub_group"
  | value => "value"
  | role => "role"

/-- The tag of a kind of node. -/
def tagOfKind (kind : String) : String :=
  if kind = "nav-link" then "li"
  else if kind = "nav-sublink" then "span"
  else if kind = "container" then "section"
  else if kind = "tab-strip" then "nav"
  else if kind = "tab" then "button"
  else if kind = "content" then "article"
  else if kind = "field" then "p"
  else "div"

/-- The tag of a node; an example keeps its layout. -/
def tagOf (kind : String) (attributes : Attributes) : String :=
  if kind = "field" ∧ attributes.subGroup = some "example" then "pre" else tagOfKind kind

/-- Does a childless node of this kind show its value as text? -/
def showsText (kind : String) : Bool :=
  kind ∈ ["field", "tab", "nav-sublink", "error"]

/-- The attributes of a node, or the first one that is missed. -/
def attributesOf (info : NodeInfo) (childless : Bool) : Except Missing Attributes :=
  match info.attributes with
  | some attributes => .ok attributes
  | none =>
    if info.kind = "field" then .error .subGroup
    else if showsText info.kind && childless then .error .value
    else .error .role

/-- An attribute in markup, nothing if it has no value. -/
def attributeText (name : String) (value : Option String) : List String :=
  match value with
  | none => []
  | some value => [name ++ "=\"" ++ escape value ++ "\""]

/-- The attributes of a node in markup. A field shows its value as text only. -/
def attributesText (info : NodeInfo) (attributes : Attributes) (hidden : Bool) : String :=
  " ".intercalate
    (attributeText "id" (some info.id) ++
      attributeText "data-role" attributes.role ++
      attributeText "data-group" attributes.group ++
      attributeText "data-sub-group" attributes.subGroup ++
      attributeText "data-id" attributes.domId ++
      (if info.kind = "field" then [] else attributeText "data-value" attributes.value) ++
      (if hidden then ["hidden"] else []))

/-- The indentation of a line. -/
def indent (depth : Nat) : String :=
  String.ofList (List.replicate (2 * depth) ' ')

/-- The opening tag of a node. -/
def openingTag (info : NodeInfo) (attributes : Attributes) (hidden : Bool) : String :=
  "<" ++ tagOf info.kind attributes ++ " " ++ attributesText info attributes hidden ++ ">"

/-- The closing tag of a node. -/
def closingTag (info : NodeInfo) (attributes : Attributes) : String :=
  "</" ++ tagOf info.kind attributes ++ ">"

/-- The line of a node that shows its value as text. -/
def textLine (depth : Nat) (hidden : Bool) (info : NodeInfo) (attributes : Attributes) : String :=
  indent depth ++ openingTag info attributes hidden ++ escape (attributes.value.getD "") ++
    closingTag info attributes

/-- The label of a navigation link. -/
def labelLines (depth : Nat) (info : NodeInfo) (attributes : Attributes) : List String :=
  match attributes.value with
  | none => []
  | some value =>
    if info.kind = "nav-link" ∧ value ≠ "" then
      [indent depth ++ "  <a role=\"button\">" ++ escape value ++ "</a>"]
    else []

/-- The lines of a node around those of its children. -/
def frameLines (depth : Nat) (hidden : Bool) (info : NodeInfo) (attributes : Attributes)
    (inner : List String) : List String :=
  (indent depth ++ openingTag info attributes hidden) :: labelLines depth info attributes ++
    inner ++ [indent depth ++ closingTag info attributes]

mutual

/-- The lines of a node. -/
def nodeLines (depth : Nat) (hidden : Bool) : Node → Except Missing (List String)
  | .pending info => do
    let attributes ← attributesOf info true
    .ok
      (if showsText info.kind then [textLine depth hidden info attributes]
      else frameLines depth hidden info attributes [])
  | .resolved info children => do
    let attributes ← attributesOf info children.isEmpty
    if showsText info.kind && children.isEmpty then .ok [textLine depth hidden info attributes]
    else do
      let inner ← nodesLines (depth + 1) (info.kind = "content-wrapper") false children
      .ok (frameLines depth hidden info attributes inner)

/-- The lines of the children of a node. Of the panels of one wrapper only the first is shown. -/
def nodesLines (depth : Nat) (panels hidden : Bool) : List Node → Except Missing (List String)
  | [] => .ok []
  | node :: rest => do
    let first ← nodeLines depth hidden node
    let others ← nodesLines depth panels panels rest
    .ok (first ++ others)

end

/-- The children of the roots that have the given kind. -/
def childrenOfKind (forest : List Node) (kind : String) : List Node :=
  forest.flatMap fun root => root.children.filter (·.info.kind = kind)

/-- The script that shows the container of a navigation link and the panel of a tab. -/
def script : List String :=
  ["document.addEventListener('DOMContentLoaded', () => \x7b",
   "  document.querySelectorAll(\"[data-role='nav-header-link']\").forEach(link => \x7b",
   "    link.addEventListener('click', () => \x7b",
   "      const target = link.dataset.id.replace(/^nav-/, 'container-');",
   "      document.querySelectorAll(\"[data-role='container']\").forEach(container => \x7b",
   "        container.hidden = container.dataset.id !== target;",
   "      \x7d);",
   "    \x7d);",
   "  \x7d);",
   "  document.querySelectorAll(\"[data-role='tab-strip-nav-link']\").forEach(tab => \x7b",
   "    tab.addEventListener('click', () => \x7b",
   "      const container = tab.closest(\"[data-role='container']\");",
   "      container.querySelectorAll(\"[data-role='content-wrapper'] > [data-role='content']\")" ++
     ".forEach(panel => \x7b",
   "        panel.hidden = panel.dataset.id !== tab.dataset.id;",
   "      \x7d);",
   "    \x7d);",
   "  \x7d);",
   "\x7d);"]

/-- The lines before the navigation links. -/
def headLines (title : String) (settings : PageSettings String) : List String :=
  ["<!DOCTYPE html>", "<html lang=\"en\">", "<head>", "  <title>" ++ escape title ++ "</title>"] ++
  settings.metaEntries.map (fun entry => "  <meta " ++ entry ++ " />") ++
  settings.scripts.map (fun src => "  <script src=\"" ++ escape src ++ "\"></script>") ++
  settings.styles.map
    (fun href => "  <link rel=\"stylesheet\" href=\"" ++ escape href ++ "\" />") ++
  ["</head>",
   "<body class=\"" ++ escape (" ".intercalate settings.bodyClasses) ++ "\">",
   "<header data-role=\"header\">",
   "  <h1>" ++ escape title ++ "</h1>",
   "  <ul data-role=\"nav-header\">"]

/-- All lines of a page. Of the containers only the first is shown. -/
def pageLines (title : String) (settings : PageSettings String) (forest : List Node) :
    Except Missing (List String) := do
  let links ← nodesLines 2 false false (childrenOfKind forest "nav-link")
  let containers ← nodesLines 1 true false (childrenOfKind forest "container")
  .ok
    (headLines title settings ++ links ++
      ["  </ul>", "</header>", "<main data-role=\"main\">"] ++ containers ++
      ["</main>", "<script>"] ++ script ++ ["</script>", "</body>", "</html>", ""])

/-- The page that is shown instead of one that cannot be rendered. -/
def errorPage (missing : Missing) : String :=
  "<!DOCTYPE html><html lang=\"en\"><head><title>ERROR</title></head><body><h1>ERROR</h1><p>" ++
    escape ("AttributeError: 'NoneType' object has no attribute '" ++ missing.name ++ "'") ++
    "</p></body></html>"

/-- The HTML page of a forest. -/
def html (title : String) (settings : PageSettings String) (forest : List Node) : String :=
  match pageLines title settings forest with
  | .ok lines => "\n".intercalate lines
  | .error missing => errorPage missing

end DocAtlas.Page
