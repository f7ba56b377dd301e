import DocAtlas.Element.Numbering
import DocAtlas.Proofs.Element.Growth
import DocAtlas.Proofs.Page.Markup

/-!
# What elements show

A node is shown by an element with the tag of its kind, which has the texts of the node as
attributes and holds the elements of its children in order. A node that shows its value as text
holds nothing else. Besides the elements of nodes there are only the labels of navigation links, and
all texts between elements are layout. An element then carries the identities of the nodes of a
tree, each once and in order.
-/

namespace DocAtlas

namespace Element.Node

/-- The identities of a forest are those of its trees, one after the other. -/
theorem idsAll_eq_flatMap (forest : List Node) : idsAll forest = forest.flatMap ids := by
  induction forest with
  | nil => rfl
  | cons node rest ih => rw [idsAll, ih, List.flatMap_cons]

/-- The identity of a tree comes before those below it. -/
theorem ids_eq (node : Node) : node.ids = node.info.id :: node.children.flatMap ids := by
  cases node with
  | pending info => rfl
  | resolved info below =>
    rw [ids, idsAll_eq_flatMap]
    rfl

end Element.Node

namespace Page

open DocAtlas.Element

/-- A text that lays out markup and does nothing else. -/
def IsLayout (s : List Char) : Prop :=
  ∀ c ∈ s, c = ' ' ∨ c = '\n'

/-- A layout holds no other characters. -/
theorem IsLayout.not_mem {s : List Char} (h : IsLayout s) {c : Char} (hblank : c ≠ ' ')
    (hnewline : c ≠ '\n') : c ∉ s :=
  fun hc => (h c hc).elim hblank hnewline

/-- Layout on a new line is layout. -/
theorem IsLayout.newline {s : List Char} (h : IsLayout s) : IsLayout ('\n' :: s) :=
  List.forall_mem_cons.mpr ⟨.inr rfl, h⟩

/-- The indentation of a line is layout. -/
theorem isLayout_indent (depth : ℕ) : IsLayout (indent depth).toList := by
  intro c hc
  rw [indent, String.toList_ofList] at hc
  exact .inl (List.eq_of_mem_replicate hc)

/-- The texts of a node that are shown as attributes. A field shows its value as text only. -/
def shownAttributes (info : NodeInfo) (attributes : Attributes) : List (String × String) :=
  [("id", some info.id), ("data-role", attributes.role), ("data-group", attributes.group),
    ("data-sub-group", attributes.subGroup), ("data-id", attributes.domId),
    ("data-value", if info.kind = "field" then none else attributes.value)].filterMap
      fun (name, value) => value.map fun value => (name, value)

/-- The tags of the kinds that have one of their own. -/
def kindTags : List (String × String) :=
  [("nav-link", "li"), ("nav-sublink", "span"), ("container", "section"), ("tab-strip", "nav"),
    ("tab", "button"), ("content", "article"), ("field", "p")]

/-- The tag of the element that shows a node. A field that is an example is set as it is laid out. -/
def shownName (info : NodeInfo) (attributes : Attributes) : String :=
  if info.kind = "field" ∧ attributes.subGroup = some "example" then "pre"
  else (kindTags.lookup info.kind).getD "div"

/-- The kinds of nodes that show their value as text, if they have no children. -/
def textKinds : List String :=
  ["field", "tab", "nav-sublink", "error"]

/-- The tag that is written is the one of the table. -/
theorem tagOf_eq (info : NodeInfo) (attributes : Attributes) :
    tagOf info.kind attributes = shownName info attributes := by
  have hkind : tagOfKind info.kind = (kindTags.lookup info.kind).getD "div" := by
    simp only [tagOfKind, kindTags, List.lookup_cons, List.lookup_nil]
    repeat' split
    all_goals simp_all
  rw [tagOf, hkind, shownName]

/-- A kind shows its value as text exactly if it is one of those. -/
theorem showsText_iff {kind : String} : showsText kind = true ↔ kind ∈ textKinds := by
  rw [showsText, decide_eq_true_eq]
  rfl

/-- The opening tag of the element that shows a node. -/
def shownTag (info : NodeInfo) (attributes : Attributes) (hidden : Bool) : Markup.OpeningTag where
  name := shownName info attributes
  attributes := shownAttributes info attributes
  flags := if hidden then ["hidden"] else []

/-- The opening tag of a label. -/
def labelTag : Markup.OpeningTag where
  name := "a"
  attributes := [("role", "button")]
  flags := []

/-- The labels of a node: a navigation link has one for its value unless that is empty. The text
behind a label is given. -/
def shownLabels (info : NodeInfo) (attributes : Attributes) (tail : String) :
    List Markup.Element :=
  match attributes.value with
  | none => []
  | some value =>
    if info.kind = "nav-link" ∧ value ≠ "" then
      [{ tag := labelTag, text := value, elements := [], tail }]
    else []

/-- An element shows a node, hidden or not. A node of a text kind without children shows its value
as text, any other one its label and the elements of its children in order. Of the children of a
wrapper all but the first are hidden. All texts between the elements are layout. -/
inductive ShownAs : Bool → Node → Markup.Element → Prop where
  | text {hidden : Bool} {node : Node} {attributes : Attributes} {tail : String}
      (hattributes : node.info.attributes = some attributes)
      (hkind : node.info.kind ∈ textKinds) (hchildren : node.children = [])
      (htail : IsLayout tail.toList) :
      ShownAs hidden node
        { tag := shownTag node.info attributes hidden
          text := attributes.value.getD ""
          elements := []
          tail }
  | frame {hidden : Bool} {node : Node} {attributes : Attributes} {text labelTail tail : String}
      {elements : List Markup.Element}
      (hattributes : node.info.attributes = some attributes)
      (hkind : ¬ (node.info.kind ∈ textKinds ∧ node.children = []))
      (htext : IsLayout text.toList) (hlabel : IsLayout labelTail.toList)
      (htail : IsLayout tail.toList) (hlength : elements.length = node.children.length)
      (hchildren : ∀ {index : ℕ} {child : Node} {element : Markup.Element},
        node.children[index]? = some child → elements[index]? = some element →
          ShownAs (if index = 0 then false else node.info.kind = "content-wrapper") child element) :
      ShownAs hidden node
        { tag := shownTag node.info attributes hidden
          text
          elements := shownLabels node.info attributes labelTail ++ elements
          tail }

/-- Elements show nodes, one each and in order. It is given whether the first one and the others are
hidden. -/
structure ShownAll (first others : Bool) (nodes : List Node) (elements : List Markup.Element) :
    Prop where
  length : elements.length = nodes.length
  shown : ∀ {index : ℕ} {node : Node} {element : Markup.Element}, nodes[index]? = some node →
    elements[index]? = some element → ShownAs (if index = 0 then first else others) node element

/-- No nodes are shown by no elements. -/
theorem ShownAll.nil (first others : Bool) : ShownAll first others [] [] :=
  ⟨rfl, by simp⟩

/-- One more node in front is shown by one more element. -/
theorem ShownAll.cons {first others : Bool} {node : Node} {element : Markup.Element}
    {nodes : List Node} {elements : List Markup.Element} (h : ShownAs first node element)
    (hrest : ShownAll others others nodes elements) :
    ShownAll first others (node :: nodes) (element :: elements) := by
  refine ⟨congrArg (· + 1) hrest.length, ?_⟩
  intro index found shown hfound hshown
  cases index with
  | zero =>
    obtain rfl := Option.some.inj hfound
    obtain rfl := Option.some.inj hshown
    exact h
  | succ index =>
    have hnext := hrest.shown hfound hshown
    rwa [ite_self] at hnext

mutual

/-- The identities that an element and the elements inside it carry. -/
def Markup.Element.ids : Markup.Element → List String
  | { tag, elements, .. } => (tag.attributes.lookup "id").toList ++ Markup.Element.idsAll elements

/-- The identities that elements and the elements inside them carry. -/
def Markup.Element.idsAll : List Markup.Element → List String
  | [] => []
  | element :: rest => element.ids ++ Markup.Element.idsAll rest

end

/-- The identities of elements are those of one after the other. -/
theorem Markup.Element.idsAll_eq_flatMap (elements : List Markup.Element) :
    idsAll elements = elements.flatMap ids := by
  induction elements with
  | nil => rfl
  | cons element rest ih => rw [idsAll, ih, List.flatMap_cons]

/-- Labels carry no identities. -/
theorem flatMap_ids_shownLabels (info : NodeInfo) (attributes : Attributes) (tail : String) :
    (shownLabels info attributes tail).flatMap Markup.Element.ids = [] := by
  unfold shownLabels
  split
  · rfl
  · split <;> rfl

/-- Elements carry the identities of nodes if each carries those of the node at its position. -/
theorem flatMap_ids_eq {nodes : List Node} {elements : List Markup.Element}
    (hlength : elements.length = nodes.length)
    (h : ∀ {index : ℕ} {node : Node} {element : Markup.Element}, nodes[index]? = some node →
      elements[index]? = some element → element.ids = node.ids) :
    elements.flatMap Markup.Element.ids = nodes.flatMap Node.ids := by
  have hmap : elements.map Markup.Element.ids = nodes.map Node.ids := by
    apply List.ext_getElem
    · rw [List.length_map, List.length_map, hlength]
    · intro index helement hnode
      rw [List.length_map] at helement hnode
      rw [List.getElem_map, List.getElem_map]
      exact h (List.getElem?_eq_getElem hnode) (List.getElem?_eq_getElem helement)
  rw [List.flatMap_def, hmap, ← List.flatMap_def]

/-- The element that shows a node carries the identities of the node and of those below it, each
once and in order. -/
theorem ShownAs.ids_eq {hidden : Bool} {node : Node} {element : Markup.Element}
    (h : ShownAs hidden node element) : element.ids = node.ids := by
  induction h with
  | text hattributes hkind hchildren htail =>
    rw [Node.ids_eq, hchildren]
    rfl
  | @frame hidden node attributes text labelTail tail elements _ _ _ _ _ hlength _ ih =>
    have hid : (shownTag node.info attributes hidden).attributes.lookup "id" =
        some node.info.id := rfl
    rw [Node.ids_eq, Markup.Element.ids, hid, Markup.Element.idsAll_eq_flatMap,
      List.flatMap_append, flatMap_ids_shownLabels, flatMap_ids_eq hlength ih]
    rfl

/-- Elements that show nodes carry the identities of the nodes and of those below them. -/
theorem ShownAll.idsAll_eq {first others : Bool} {nodes : List Node}
    {elements : List Markup.Element} (h : ShownAll first others nodes elements) :
    Markup.Element.idsAll elements = Node.idsAll nodes := by
  rw [Markup.Element.idsAll_eq_flatMap, Node.idsAll_eq_flatMap]
  exact flatMap_ids_eq h.length fun hnode helement => (h.shown hnode helement).ids_eq

end Page

end DocAtlas
