import DocAtlas.Page.Html
import DocAtlas.Proofs.Element.Growth

/-!
# Nodes without attributes

A page renders the navigation links of all roots, then their containers, each with everything below
it in pre-order. If all these nodes have attributes, the page holds the lines of every one of them.
If some have none, the page is an error page, which names the attribute that is missed at the first
of them; what was rendered before is lost. Roots and their other children are never looked at.

A renderer that stops is compared with one that does not: `plainLines` writes a node as if absent
attributes were empty. The two agree up to the first node without attributes in pre-order, which one
induction over trees carries through all depths.
-/

namespace DocAtlas.Page

open DocAtlas.Element

/-- The attribute that is missed first when a node without attributes is rendered. -/
def missedFirst (node : Node) : Missing :=
  if node.info.kind = "field" then .subGroup
  else if node.info.kind ∈ ["tab", "nav-sublink", "error"] ∧ node.children.isEmpty then .value
  else .role

/-- The nodes that a page renders, in the order of rendering. -/
def rendered (forest : List Node) : List Node :=
  Node.nodesAll (childrenOfKind forest "nav-link") ++
    Node.nodesAll (childrenOfKind forest "container")

mutual

/-- The lines of a node, as if absent attributes were empty. -/
def plainLines (depth : Nat) (hidden : Bool) : Node → List String
  | .pending info =>
    let attributes := info.attributes.getD {}
    if showsText info.kind then [textLine depth hidden info attributes]
    else frameLines depth hidden info attributes []
  | .resolved info children =>
    let attributes := info.attributes.getD {}
    if showsText info.kind && children.isEmpty then [textLine depth hidden info attributes]
    else
      frameLines depth hidden info attributes
        (plainLinesAll (depth + 1) (info.kind = "content-wrapper") false children)

/-- The lines of the children of a node. Of the panels of one wrapper only the first is shown. -/
def plainLinesAll (depth : Nat) (panels hidden : Bool) : List Node → List String
  | [] => []
  | node :: rest => plainLines depth hidden node ++ plainLinesAll depth panels panels rest

end

/-- The lines of a page whose nodes all have attributes. -/
def documentLines (title : String) (settings : PageSettings String) (forest : List Node) :
    List String :=
  headLines title settings ++
    plainLinesAll 2 false false (childrenOfKind forest "nav-link") ++
    ["  </ul>", "</header>", "<main data-role=\"main\">"] ++
    plainLinesAll 1 true false (childrenOfKind forest "container") ++
    ["</main>", "<script>"] ++ script ++ ["</script>", "</body>", "</html>", ""]

/-- Does a node have no attributes? -/
def isBare (node : Node) : Bool :=
  node.info.attributes.isNone

/-- A node is bare if its attributes are absent. -/
theorem isBare_iff (node : Node) : isBare node = true ↔ node.info.attributes = none :=
  Option.isNone_iff_eq_none

/-- Lines, unless one of the nodes has no attributes: then what is missed at the first of them. -/
def unlessBare (nodes : List Node) (lines : List String) : Except Missing (List String) :=
  match nodes.find? isBare with
  | none => .ok lines
  | some node => .error (missedFirst node)

/-- The first node without attributes decides. -/
theorem unlessBare_cons_of_isBare {node : Node} (h : isBare node = true) (rest : List Node)
    (lines : List String) : unlessBare (node :: rest) lines = .error (missedFirst node) := by
  rw [unlessBare, List.find?_cons_of_pos h]

/-- A node with attributes changes nothing. -/
theorem unlessBare_cons_of_not_isBare {node : Node} (h : ¬isBare node = true) (rest : List Node)
    (lines : List String) : unlessBare (node :: rest) lines = unlessBare rest lines := by
  rw [unlessBare, List.find?_cons_of_neg h, unlessBare]

/-- Two groups of nodes are rendered one after the other, and their lines are then combined. -/
theorem bind_unlessBare_bind_unlessBare (first second : List Node) (front back : List String)
    (f : List String → List String → List String) :
    (do
      let front ← unlessBare first front
      let back ← unlessBare second back
      .ok (f front back)) = unlessBare (first ++ second) (f front back) := by
  rw [unlessBare, unlessBare, unlessBare, List.find?_append]
  cases first.find? isBare with
  | some node => rfl
  | none => cases second.find? isBare <;> rfl

/-- What is done with the lines of nodes is done only if they are rendered. -/
theorem unlessBare_bind (nodes : List Node) (lines : List String)
    (f : List String → List String) :
    (unlessBare nodes lines >>= fun lines => .ok (f lines)) = unlessBare nodes (f lines) := by
  rw [unlessBare, unlessBare]
  cases nodes.find? isBare <;> rfl

/-- A node without attributes misses one of them, depending on its kind and its children. -/
theorem attributesOf_of_isBare {node : Node} (h : isBare node = true) :
    attributesOf node.info node.children.isEmpty = .error (missedFirst node) := by
  rw [attributesOf, (isBare_iff node).mp h, missedFirst]
  by_cases hfield : node.info.kind = "field"
  · simp [hfield]
  · simp only [hfield, showsText, List.mem_cons, false_or, if_false, Bool.and_eq_true,
      decide_eq_true_eq]
    split <;> rfl

/-- A node with attributes misses none. -/
theorem attributesOf_of_not_isBare {node : Node} (h : ¬isBare node = true) (childless : Bool) :
    attributesOf node.info childless = .ok (node.info.attributes.getD {}) := by
  obtain ⟨attributes, hattributes⟩ :=
    Option.ne_none_iff_exists'.mp (h ∘ (isBare_iff node).mpr)
  rw [attributesOf, hattributes, Option.getD_some]

mutual

/-- A node is rendered unless it or some node below it has no attributes. -/
theorem nodeLines_eq_unlessBare (depth : Nat) (hidden : Bool) : (node : Node) →
    nodeLines depth hidden node = unlessBare node.nodes (plainLines depth hidden node)
  | .pending info => by
    rw [nodeLines, Node.nodes]
    by_cases h : isBare (.pending info) = true
    · have hmissed : attributesOf info true = _ := attributesOf_of_isBare h
      rw [hmissed, unlessBare_cons_of_isBare h]
      rfl
    · have hattributes : attributesOf info true = _ := attributesOf_of_not_isBare h true
      rw [hattributes, unlessBare_cons_of_not_isBare h, plainLines]
      rfl
  | .resolved info children => by
    rw [nodeLines, Node.nodes]
    by_cases h : isBare (.resolved info children) = true
    · have hmissed : attributesOf info children.isEmpty = _ := attributesOf_of_isBare h
      rw [hmissed, unlessBare_cons_of_isBare h]
      rfl
    · have hattributes : attributesOf info children.isEmpty = _ := attributesOf_of_not_isBare h _
      rw [hattributes, unlessBare_cons_of_not_isBare h, plainLines,
        nodesLines_eq_unlessBare (depth + 1) (info.kind = "content-wrapper") false children]
      -- A node that shows its text does not render its children, but then it has none.
      by_cases htext : (showsText info.kind && children.isEmpty) = true
      · obtain ⟨_, hchildless⟩ := Bool.and_eq_true_iff.mp htext
        obtain rfl := List.isEmpty_iff.mp hchildless
        simp only [if_pos htext]
        rfl
      · simp only [if_neg htext]
        exact unlessBare_bind _ _ _

/-- Nodes are rendered unless some node among or below them has no attributes. -/
theorem nodesLines_eq_unlessBare (depth : Nat) (panels hidden : Bool) : (nodes : List Node) →
    nodesLines depth panels hidden nodes =
      unlessBare (Node.nodesAll nodes) (plainLinesAll depth panels hidden nodes)
  | [] => rfl
  | node :: rest => by
    rw [nodesLines, nodeLines_eq_unlessBare depth hidden node,
      nodesLines_eq_unlessBare depth panels panels rest, Node.nodesAll, plainLinesAll]
    exact bind_unlessBare_bind_unlessBare _ _ _ _ (· ++ ·)

end

/-- A page is rendered unless some rendered node has no attributes. -/
theorem pageLines_eq_unlessBare (title : String) (settings : PageSettings String)
    (forest : List Node) :
    pageLines title settings forest =
      unlessBare (rendered forest) (documentLines title settings forest) := by
  rw [pageLines, nodesLines_eq_unlessBare, nodesLines_eq_unlessBare]
  exact bind_unlessBare_bind_unlessBare _ _ _ _ fun links containers =>
    headLines title settings ++ links ++
      ["  </ul>", "</header>", "<main data-role=\"main\">"] ++ containers ++
      ["</main>", "<script>"] ++ script ++ ["</script>", "</body>", "</html>", ""]

/-- An error page tells which attribute was missed. -/
theorem errorPage_injective : Function.Injective errorPage := by
  intro first second h
  have hmessage :
      escape ("AttributeError: 'NoneType' object has no attribute '" ++ first.name ++ "'") =
        escape ("AttributeError: 'NoneType' object has no attribute '" ++ second.name ++ "'") := by
    -- The equation lemma of the definition would evaluate the page.
    delta errorPage at h
    exact (String.append_right_inj _).mp ((String.append_left_inj _).mp h)
  have hescaped := String.ofList_inj.mp hmessage
  rw [String.toList_append, String.toList_append, String.toList_append, String.toList_append,
    List.flatMap_append, List.flatMap_append, List.flatMap_append, List.flatMap_append] at hescaped
  have hname := List.append_cancel_left (List.append_cancel_right hescaped)
  cases first <;> cases second <;> first | rfl | exact absurd hname (by decide)

/-- An error page is written in one line. -/
theorem errorPage_starts (missing : Missing) :
    "<!DOCTYPE html><".toList <+: (errorPage missing).toList := by
  delta errorPage
  rw [String.toList_append, String.toList_append, List.append_assoc]
  exact List.IsPrefix.trans (by decide) (List.prefix_append _ _)

/-- A document starts with a line of its own. -/
theorem document_starts (title : String) (settings : PageSettings String) (forest : List Node) :
    "<!DOCTYPE html>\n".toList <+:
      ("\n".intercalate (documentLines title settings forest)).toList := by
  have hlines : "\n".intercalate (documentLines title settings forest) =
      "<!DOCTYPE html>" ++ "\n" ++ _ := String.intercalate_cons_cons
  rw [hlines, String.toList_append]
  exact ⟨_, rfl⟩

/-- An error page is no document. -/
theorem errorPage_ne_document (missing : Missing) (title : String)
    (settings : PageSettings String) (forest : List Node) :
    errorPage missing ≠ "\n".intercalate (documentLines title settings forest) := by
  intro h
  have hdocument := document_starts title settings forest
  rw [← h] at hdocument
  have hprefix := List.prefix_of_prefix_length_le (errorPage_starts missing) hdocument (by decide)
  exact absurd hprefix (by decide)

/-- What a page rendered is: a child of a root, a navigation link or a container, and all that is
below it. -/
theorem mem_rendered_iff {forest : List Node} {node : Node} :
    node ∈ rendered forest ↔ ∃ root ∈ forest, ∃ child ∈ root.children,
      child.info.kind ∈ ["nav-link", "container"] ∧ node ∈ child.nodes := by
  simp only [rendered, Node.nodesAll_eq_flatMap, List.mem_append, List.mem_flatMap, childrenOfKind,
    List.mem_filter, decide_eq_true_eq, List.mem_cons, List.not_mem_nil, or_false]
  constructor
  · rintro (⟨child, ⟨root, hroot, hchild, hkind⟩, hnode⟩ |
      ⟨child, ⟨root, hroot, hchild, hkind⟩, hnode⟩)
    · exact ⟨root, hroot, child, hchild, .inl hkind, hnode⟩
    · exact ⟨root, hroot, child, hchild, .inr hkind, hnode⟩
  · rintro ⟨root, hroot, child, hchild, hkind | hkind, hnode⟩
    · exact .inl ⟨child, ⟨root, hroot, hchild, hkind⟩, hnode⟩
    · exact .inr ⟨child, ⟨root, hroot, hchild, hkind⟩, hnode⟩

/-- The page is the error page of the first rendered node without attributes. -/
theorem html_eq_of_find?_eq_some {title : String} {settings : PageSettings String}
    {forest : List Node} {node : Node} (h : (rendered forest).find? isBare = some node) :
    html title settings forest = errorPage (missedFirst node) := by
  rw [html, pageLines_eq_unlessBare, unlessBare, h]

/-- The page is the whole document if no rendered node is without attributes. -/
theorem html_eq_of_find?_eq_none {title : String} {settings : PageSettings String}
    {forest : List Node} (h : (rendered forest).find? isBare = none) :
    html title settings forest = "\n".intercalate (documentLines title settings forest) := by
  rw [html, pageLines_eq_unlessBare, unlessBare, h]

/-- An error page names what is missed at the first rendered node without attributes. -/
theorem html_eq_errorPage_iff {title : String} {settings : PageSettings String}
    {forest : List Node} {missing : Missing} :
    html title settings forest = errorPage missing ↔
      ∃ node, (rendered forest).find? isBare = some node ∧ missedFirst node = missing := by
  cases h : (rendered forest).find? isBare with
  | none =>
    rw [html_eq_of_find?_eq_none h]
    simp [(errorPage_ne_document missing title settings forest).symm]
  | some node =>
    rw [html_eq_of_find?_eq_some h]
    simp [errorPage_injective.eq_iff]

/-- The page is the whole document only if no rendered node is without attributes. -/
theorem html_eq_document_iff {title : String} {settings : PageSettings String}
    {forest : List Node} :
    html title settings forest = "\n".intercalate (documentLines title settings forest) ↔
      (rendered forest).find? isBare = none := by
  refine ⟨fun hdocument => ?_, html_eq_of_find?_eq_none⟩
  cases h : (rendered forest).find? isBare with
  | none => rfl
  | some node =>
    rw [html_eq_of_find?_eq_some h] at hdocument
    exact absurd hdocument (errorPage_ne_document _ title settings forest)

/-- A node is the first one without attributes if all before it have some. -/
theorem find?_isBare_eq_some_iff {nodes : List Node} {node : Node} :
    nodes.find? isBare = some node ↔ ∃ before after, nodes = before ++ node :: after ∧
      (∀ other ∈ before, other.info.attributes ≠ none) ∧ node.info.attributes = none := by
  rw [List.find?_eq_some_iff_append]
  simp only [Bool.not_eq_true', ← Bool.not_eq_true, isBare_iff]
  constructor
  · rintro ⟨hmissing, before, after, heq, hbefore⟩
    exact ⟨before, after, heq, hbefore, hmissing⟩
  · rintro ⟨before, after, heq, hbefore, hmissing⟩
    exact ⟨hmissing, before, after, heq, hbefore⟩

/-- What page a forest gets. It is an error page exactly if a navigation link or a container of a
root, or a node below one, has no attributes; the error page names what is missed at the first of
these nodes in the order of rendering; and if there is none, the page is the whole document. -/
theorem html_missing_attributes (title : String) (settings : PageSettings String)
    (forest : List Node) :
    ((∃ missing, html title settings forest = errorPage missing) ↔
      ∃ root ∈ forest, ∃ child ∈ root.children,
        child.info.kind ∈ ["nav-link", "container"] ∧
          ∃ node ∈ child.nodes, node.info.attributes = none) ∧
    (∀ missing, html title settings forest = errorPage missing ↔
      ∃ before node after, rendered forest = before ++ node :: after ∧
        (∀ other ∈ before, other.info.attributes ≠ none) ∧
        node.info.attributes = none ∧ missedFirst node = missing) ∧
    (html title settings forest = "\n".intercalate (documentLines title settings forest) ↔
      ∀ node ∈ rendered forest, node.info.attributes ≠ none) := by
  refine ⟨?_, fun missing => ?_, ?_⟩
  · have hfound : (∃ missing, html title settings forest = errorPage missing) ↔
        ∃ node ∈ rendered forest, node.info.attributes = none := by
      simp only [html_eq_errorPage_iff, ← isBare_iff, ← List.find?_isSome,
        Option.isSome_iff_exists]
      exact ⟨fun ⟨_, node, hnode, _⟩ => ⟨node, hnode⟩, fun ⟨node, hnode⟩ => ⟨_, node, hnode, rfl⟩⟩
    rw [hfound]
    constructor
    · rintro ⟨node, hnode, hmissing⟩
      obtain ⟨root, hroot, child, hchild, hkind, hnode⟩ := mem_rendered_iff.mp hnode
      exact ⟨root, hroot, child, hchild, hkind, node, hnode, hmissing⟩
    · rintro ⟨root, hroot, child, hchild, hkind, node, hnode, hmissing⟩
      exact ⟨node, mem_rendered_iff.mpr ⟨root, hroot, child, hchild, hkind, hnode⟩, hmissing⟩
  · rw [html_eq_errorPage_iff]
    simp only [find?_isBare_eq_some_iff]
    constructor
    · rintro ⟨node, ⟨before, after, heq, hbefore, hmissing⟩, hmissed⟩
      exact ⟨before, node, after, heq, hbefore, hmissing, hmissed⟩
    · rintro ⟨before, node, after, heq, hbefore, hmissing, hmissed⟩
      exact ⟨node, ⟨before, after, heq, hbefore, hmissing⟩, hmissed⟩
  · rw [html_eq_document_iff, List.find?_eq_none]
    simp only [isBare_iff, ne_eq]

end DocAtlas.Page
