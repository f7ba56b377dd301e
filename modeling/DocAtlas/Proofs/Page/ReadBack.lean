import DocAtlas.Proofs.Page.Shown

/-!
# Reading nodes back

The lines of a node are markup that is read back to an element that shows the node. Lines are read
in front of a markup that is known already: they show elements if these come first in what is read
then. This is said of a single tag, of an element around lines, and by induction of a node and of
its children. Nothing is asked of the texts of the nodes, so none of them can add to the markup.
-/

namespace DocAtlas.Page

open DocAtlas.Element

/-! ### Tags -/

/-- The names that are written in the tag of a node are names. -/
theorem named_shownTag (info : NodeInfo) (attributes : Attributes) (hidden : Bool) :
    (shownTag info attributes hidden).Named := by
  have htags : ∀ name ∈ ["pre", "li", "span", "section", "nav", "button", "article", "p", "div"],
      name ≠ "" ∧ Markup.isName name = true := by decide
  have hname : shownName info attributes ∈
      ["pre", "li", "span", "section", "nav", "button", "article", "p", "div"] := by
    rw [← tagOf_eq]
    unfold tagOf tagOfKind
    split_ifs <;> simp
  have hslots : ∀ name ∈ ["id", "data-role", "data-group", "data-sub-group", "data-id",
      "data-value"], Markup.isName name = true := by decide
  refine ⟨(htags _ hname).1, (htags _ hname).2, ?_, ?_⟩
  · intro pair hpair
    obtain ⟨⟨name, value⟩, hslot, hvalue⟩ := List.mem_filterMap.mp hpair
    obtain ⟨_, _, rfl⟩ := Option.map_eq_some_iff.mp hvalue
    exact hslots name (List.mem_map_of_mem (f := Prod.fst) hslot)
  · have hflag : ∀ hidden : Bool, ∀ flag ∈ if hidden then ["hidden"] else [],
        Markup.isName flag = true := by decide
    exact hflag hidden

/-- The names that are written in the tag of a label are names. -/
theorem named_labelTag : labelTag.Named :=
  ⟨by decide, by decide, by decide, by decide⟩

/-- Texts with a character between them, if there are any, have the character before each of them
once it is put before the first one. -/
theorem cons_toList_intercalate {separator : Char} {texts : List String} (h : texts ≠ []) :
    separator :: ((String.singleton separator).intercalate texts).toList =
      texts.flatMap fun text => separator :: text.toList := by
  induction texts with
  | nil => exact absurd rfl h
  | cons first rest ih =>
    cases rest with
    | nil => simp
    | cons second others =>
      rw [List.flatMap_cons, ← ih (List.cons_ne_nil _ _)]
      simp [String.toList_intercalate]

/-- An attribute is written as its tag says. -/
theorem flatMap_attributeText (name : String) (value : Option String) :
    ((attributeText name value).flatMap fun text => ' ' :: text.toList) =
      (value.map fun value => (name, value)).toList.flatMap Markup.OpeningTag.attributeChars := by
  cases value with
  | none => rfl
  | some value => simp [attributeText, Markup.OpeningTag.attributeChars]

/-- The opening tag of a node is written as its tag says. -/
theorem toList_openingTag (info : NodeInfo) (attributes : Attributes) (hidden : Bool) :
    (openingTag info attributes hidden).toList =
      '<' :: (shownTag info attributes hidden).chars ++ ['>'] := by
  have hvalue : (if info.kind = "field" then [] else attributeText "data-value" attributes.value) =
      attributeText "data-value" (if info.kind = "field" then none else attributes.value) := by
    split <;> rfl
  have htext : ' ' :: (attributesText info attributes hidden).toList =
      (shownTag info attributes hidden).attributes.flatMap Markup.OpeningTag.attributeChars ++
        (shownTag info attributes hidden).flags.flatMap Markup.OpeningTag.flagChars := by
    rw [attributesText, hvalue]
    refine (cons_toList_intercalate (by simp [attributeText])).trans ?_
    simp only [List.flatMap_append, flatMap_attributeText, shownTag, shownAttributes,
      List.filterMap_eq_flatMap_toList, List.flatMap_cons, List.flatMap_nil, List.append_nil,
      List.append_assoc]
    cases hidden <;> rfl
  rw [openingTag, tagOf_eq, Markup.OpeningTag.chars, ← htext]
  simp [shownTag]

/-- The closing tag of a node is written as its tag says. -/
theorem toList_closingTag (info : NodeInfo) (attributes : Attributes) (hidden : Bool) :
    (closingTag info attributes).toList =
      '<' :: '/' :: (shownTag info attributes hidden).name.toList ++ ['>'] := by
  simp [closingTag, tagOf_eq, shownTag]

/-! ### Lines -/

/-- Lines with a newline before each of them. -/
def lineChars (lines : List String) : List Char :=
  lines.flatMap fun line => '\n' :: line.toList

/-- Lines show elements with a property: read in front of any markup that begins with layout, they
begin with layout and put such elements first. -/
def References.Shows (references : References) (lines : List String)
    (P : List Markup.Element → Prop) : Prop :=
  ∀ ⦃s lead : List Char⦄ ⦃parts : List (Markup.Tag × String)⦄, IsLayout lead →
    references.parts? s = some (lead, parts) → ∃ lead elements, IsLayout lead ∧ P elements ∧
      references.parts? (lineChars lines ++ s) =
        some (lead, Markup.Element.partsAll elements ++ parts)

namespace References

variable {references : References}

/-- Layout has no references to be replaced. -/
theorem ofList_unescape_layout {s : List Char} (h : IsLayout s) :
    String.ofList (references.unescape s) = String.ofList s := by
  rw [references.unescape_of_forall fun c hc heq => h.not_mem (by decide) (by decide) (heq ▸ hc)]

variable {s lead : List Char} {parts : List (Markup.Tag × String)}

/-- An indented opening tag is read. -/
theorem parts?_opening {tag : Markup.OpeningTag} (htag : tag.Named) {layout : List Char}
    (hlayout : IsLayout layout) (h : references.parts? s = some (lead, parts)) :
    references.parts? (layout ++ ('<' :: tag.chars ++ '>' :: s)) =
      some (layout, (.opening tag, String.ofList (references.unescape lead)) :: parts) := by
  have hread := references.parts?_tag (htag.not_mem_chars (by decide))
    (htag.not_mem_chars (by decide)) (references.tag?_chars htag) h
  have hindented := references.parts?_append (hlayout.not_mem (by decide) (by decide))
    (hlayout.not_mem (by decide) (by decide)) hread
  rwa [List.append_nil] at hindented

/-- A closing tag is read. -/
theorem parts?_closing {name : String} (hname : Markup.isName name = true)
    {text : List Char} (hopen : '<' ∉ text) (hclose : '>' ∉ text)
    (h : references.parts? s = some (lead, parts)) :
    references.parts? (text ++ ('<' :: ('/' :: name.toList) ++ '>' :: s)) =
      some (text, (.closing name, String.ofList (references.unescape lead)) :: parts) := by
  have hnot {c : Char} (hc : Markup.isNameChar c = false) (hslash : c ≠ '/') :
      c ∉ '/' :: name.toList := by
    rw [List.mem_cons, not_or]
    exact ⟨hslash, Markup.not_mem_name hc hname⟩
  have hread := references.parts?_tag (hnot (by decide) (by decide))
    (hnot (by decide) (by decide)) (references.tag?_closing name) h
  have htext := references.parts?_append hopen hclose hread
  rwa [List.append_nil] at htext

/-- No lines show no elements. -/
theorem Shows.nil : references.Shows [] (· = []) := by
  intro s lead parts hlead h
  exact ⟨lead, [], hlead, rfl, h⟩

/-- Lines one after the other show elements one after the other. -/
theorem Shows.append {first second : List String} {P Q : List Markup.Element → Prop}
    (hfirst : references.Shows first P) (hsecond : references.Shows second Q) :
    references.Shows (first ++ second) fun elements =>
      ∃ before after, elements = before ++ after ∧ P before ∧ Q after := by
  intro s lead parts hlead h
  obtain ⟨lead₂, after, hlead₂, hafter, h₂⟩ := hsecond hlead h
  obtain ⟨lead₁, before, hlead₁, hbefore, h₁⟩ := hfirst hlead₂ h₂
  refine ⟨lead₁, before ++ after, hlead₁, ⟨before, after, rfl, hbefore, hafter⟩, ?_⟩
  rw [lineChars, List.flatMap_append, List.append_assoc, Markup.Element.partsAll_append,
    List.append_assoc]
  exact h₁

/-- Lines show elements with any property that follows. -/
theorem Shows.imp {lines : List String} {P Q : List Markup.Element → Prop}
    (h : references.Shows lines P) (hPQ : ∀ elements, P elements → Q elements) :
    references.Shows lines Q := by
  intro s lead parts hlead hs
  obtain ⟨lead', elements, hlead', hP, hread⟩ := h hlead hs
  exact ⟨lead', elements, hlead', hPQ elements hP, hread⟩

section

variable {tag : Markup.OpeningTag} {layout : List Char}

/-- A line with an element around an escaped text shows this element. -/
theorem Shows.text (htag : tag.Named) (hlayout : IsLayout layout) {line value : String}
    (hline : line.toList = layout ++ ('<' :: tag.chars ++ ['>']) ++ (escape value).toList ++
      ('<' :: '/' :: tag.name.toList ++ ['>'])) :
    references.Shows [line] fun elements =>
      ∃ tail, IsLayout tail.toList ∧ elements = [{ tag, text := value, elements := [], tail }] := by
  intro s lead parts hlead h
  have hclosing := parts?_closing htag.name (not_mem_escape (by decide) value)
    (not_mem_escape (by decide) value) h
  have hopening := parts?_opening htag hlayout.newline hclosing
  rw [references.unescape_escape, String.ofList_toList, ofList_unescape_layout hlead] at hopening
  refine ⟨_, _, hlayout.newline, ⟨String.ofList lead, by rwa [String.toList_ofList], rfl⟩, ?_⟩
  simpa [lineChars, hline, Markup.Element.partsAll, Markup.Element.parts] using hopening

/-- Lines between those of an opening and a closing tag show the element around what they show by
themselves. -/
theorem Shows.frame (htag : tag.Named) (hlayout : IsLayout layout) {opening closing : String}
    (hopening : opening.toList = layout ++ ('<' :: tag.chars ++ ['>']))
    (hclosing : closing.toList = layout ++ ('<' :: '/' :: tag.name.toList ++ ['>']))
    {inner : List String} {P : List Markup.Element → Prop} (hinner : references.Shows inner P) :
    references.Shows (opening :: inner ++ [closing]) fun outer =>
      ∃ text elements tail, IsLayout text.toList ∧ IsLayout tail.toList ∧ P elements ∧
        outer = [{ tag, text, elements, tail }] := by
  intro s lead parts hlead h
  have hclosed := parts?_closing htag.name (hlayout.newline.not_mem (by decide) (by decide))
    (hlayout.newline.not_mem (by decide) (by decide)) h
  obtain ⟨text, elements, htext, hP, hbetween⟩ := hinner hlayout.newline hclosed
  have hopened := parts?_opening htag hlayout.newline hbetween
  rw [ofList_unescape_layout htext, ofList_unescape_layout hlead] at hopened
  refine ⟨_, _, hlayout.newline,
    ⟨String.ofList text, elements, String.ofList lead, ?_, ?_, hP, rfl⟩, ?_⟩
  · rwa [String.toList_ofList]
  · rwa [String.toList_ofList]
  · simpa [lineChars, hopening, hclosing, Markup.Element.partsAll, Markup.Element.parts]
      using hopened

end

/-- Lines that show elements are read back to these elements. -/
theorem Shows.exists_read? {lines : List String} {P : List Markup.Element → Prop}
    (h : references.Shows lines P) :
    ∃ lead elements, references.read? ("\n".intercalate lines) = some (lead, elements) ∧
      IsLayout lead.toList ∧ P elements := by
  have hempty : references.parts? [] = some ([], []) := rfl
  obtain ⟨lead, elements, hlead, hP, hlines⟩ := h (by simp [IsLayout]) hempty
  rw [List.append_nil, List.append_nil] at hlines
  -- The newline before the first line is not part of the text.
  have hread : ∃ lead, IsLayout lead ∧ references.parts? ("\n".intercalate lines).toList =
      some (lead, Markup.Element.partsAll elements) := by
    by_cases hne : lines = []
    · subst hne
      exact ⟨lead, hlead, hlines⟩
    · have hchars : lineChars lines = ['\n'] ++ ("\n".intercalate lines).toList :=
        (cons_toList_intercalate hne).symm
      rw [hchars] at hlines
      obtain ⟨rest, rfl, hrest⟩ := references.exists_of_parts?_append (by decide) hlines
      exact ⟨rest, (List.forall_mem_append.mp hlead).2, hrest⟩
  obtain ⟨lead, hlead, hread⟩ := hread
  refine ⟨String.ofList lead, elements, ?_, by rwa [String.toList_ofList], hP⟩
  have hbuild : Markup.build? (Markup.Element.partsAll elements) = some elements :=
    Markup.build?_eq_some_iff.mpr rfl
  simp only [read?, hread, hbuild, Option.bind_eq_bind, Option.bind_some,
    ofList_unescape_layout hlead]

end References

/-! ### Nodes -/

section

variable (references : References) {node : Node} {attributes : Attributes}
  (hattributes : node.info.attributes = some attributes) (depth : ℕ) (hidden : Bool)

/-- The lines of labels show the labels. -/
theorem shows_labelLines (info : NodeInfo) (attributes : Attributes) :
    references.Shows (labelLines depth info attributes) fun elements =>
      ∃ tail, IsLayout tail.toList ∧ elements = shownLabels info attributes tail := by
  have hnone : references.Shows [] fun elements =>
      ∃ tail : String, IsLayout tail.toList ∧ elements = [] :=
    References.Shows.nil.imp fun elements h => ⟨"", by simp [IsLayout], h⟩
  unfold labelLines shownLabels
  cases attributes.value with
  | none => exact hnone
  | some value =>
    by_cases hlabel : info.kind = "nav-link" ∧ value ≠ ""
    · simp only [if_pos hlabel]
      have hlayout : IsLayout ((indent depth).toList ++ [' ', ' ']) :=
        List.forall_mem_append.mpr ⟨isLayout_indent depth, by simp⟩
      refine References.Shows.text named_labelTag hlayout ?_
      have hchars : labelTag.chars = "a role=\"button\"".toList := rfl
      have hname : labelTag.name.toList = ['a'] := rfl
      simp [hchars, hname]
    · simp only [if_neg hlabel]
      exact hnone

include hattributes

/-- The line of a node that shows its value as text shows the node. -/
theorem shows_textLine (hkind : node.info.kind ∈ textKinds) (hchildren : node.children = []) :
    references.Shows [textLine depth hidden node.info attributes] fun elements =>
      ∃ element, elements = [element] ∧ ShownAs hidden node element := by
  have hline : (textLine depth hidden node.info attributes).toList = (indent depth).toList ++
      ('<' :: (shownTag node.info attributes hidden).chars ++ ['>']) ++
        (escape (attributes.value.getD "")).toList ++
          ('<' :: '/' :: (shownTag node.info attributes hidden).name.toList ++ ['>']) := by
    rw [textLine, String.toList_append, String.toList_append, String.toList_append,
      toList_openingTag, toList_closingTag _ _ hidden]
  refine (References.Shows.text (named_shownTag node.info attributes hidden)
    (isLayout_indent depth) hline).imp ?_
  intro elements h
  obtain ⟨tail, htail, rfl⟩ := h
  exact ⟨_, rfl, .text hattributes hkind hchildren htail⟩

/-- The lines of a node around those of its children show the node. -/
theorem shows_frameLines (hkind : ¬ (node.info.kind ∈ textKinds ∧ node.children = []))
    {inner : List String} (hinner : references.Shows inner
      (ShownAll false (node.info.kind = "content-wrapper") node.children)) :
    references.Shows (frameLines depth hidden node.info attributes inner) fun elements =>
      ∃ element, elements = [element] ∧ ShownAs hidden node element := by
  have hopening : (indent depth ++ openingTag node.info attributes hidden).toList =
      (indent depth).toList ++ ('<' :: (shownTag node.info attributes hidden).chars ++ ['>']) := by
    rw [String.toList_append, toList_openingTag]
  have hclosing : (indent depth ++ closingTag node.info attributes).toList =
      (indent depth).toList ++
        ('<' :: '/' :: (shownTag node.info attributes hidden).name.toList ++ ['>']) := by
    rw [String.toList_append, toList_closingTag _ _ hidden]
  have hshows := References.Shows.frame (named_shownTag node.info attributes hidden)
    (isLayout_indent depth) hopening hclosing
      ((shows_labelLines references depth node.info attributes).append hinner)
  rw [frameLines, List.cons_append]
  refine hshows.imp ?_
  intro outer h
  obtain ⟨text, _, tail, htext, htail, ⟨_, elements, rfl, ⟨labelTail, hlabel, rfl⟩, hall⟩, rfl⟩ := h
  exact ⟨_, rfl, .frame hattributes hkind htext hlabel htail hall.length hall.shown⟩

end

mutual

/-- The lines of a node with attributes everywhere are made, and show the node. -/
theorem exists_shows_nodeLines (references : References) (depth : ℕ) (hidden : Bool) :
    (node : Node) → (∀ below ∈ node.nodes, below.info.attributes.isSome) →
      ∃ lines, nodeLines depth hidden node = .ok lines ∧ references.Shows lines fun elements =>
        ∃ element, elements = [element] ∧ ShownAs hidden node element
  | .pending info, h => by
    obtain ⟨attributes, hattributes⟩ := Option.isSome_iff_exists.mp (h _ List.mem_cons_self)
    have hinfo : info.attributes = some attributes := hattributes
    rw [nodeLines, attributesOf, hinfo]
    by_cases hkind : info.kind ∈ textKinds
    · refine ⟨_, rfl, ?_⟩
      rw [if_pos (showsText_iff.mpr hkind)]
      exact shows_textLine references hattributes depth hidden hkind rfl
    · refine ⟨_, rfl, ?_⟩
      rw [if_neg (mt showsText_iff.mp hkind)]
      refine shows_frameLines references hattributes depth hidden (fun h => hkind h.1) ?_
      exact References.Shows.nil.imp fun elements h => h ▸ .nil _ _
  | .resolved info children, h => by
    rw [Node.nodes, List.forall_mem_cons] at h
    obtain ⟨attributes, hattributes⟩ := Option.isSome_iff_exists.mp h.1
    have hinfo : info.attributes = some attributes := hattributes
    rw [nodeLines, attributesOf, hinfo]
    by_cases hkind : info.kind ∈ textKinds ∧ children = []
    · obtain ⟨hkind, rfl⟩ := hkind
      refine ⟨[textLine depth hidden info attributes], by rw [showsText_iff.mpr hkind]; rfl, ?_⟩
      exact shows_textLine references hattributes depth hidden hkind rfl
    · obtain ⟨inner, hinner, hshows⟩ := exists_shows_nodesLines references (depth + 1)
        (info.kind = "content-wrapper") false children h.2
      refine ⟨frameLines depth hidden info attributes inner, ?_, ?_⟩
      · have hframe : (showsText info.kind && children.isEmpty) = false := by
          simpa [← showsText_iff] using hkind
        simp only [hframe, hinner]
        rfl
      · exact shows_frameLines references hattributes depth hidden hkind hshows

/-- The lines of nodes with attributes everywhere are made, and show the nodes. -/
theorem exists_shows_nodesLines (references : References) (depth : ℕ) (panels hidden : Bool) :
    (nodes : List Node) → (∀ below ∈ Node.nodesAll nodes, below.info.attributes.isSome) →
      ∃ lines, nodesLines depth panels hidden nodes = .ok lines ∧
        references.Shows lines (ShownAll hidden panels nodes)
  | [], _ => ⟨[], rfl, References.Shows.nil.imp fun elements h => h ▸ .nil _ _⟩
  | node :: rest, h => by
    rw [Node.nodesAll, List.forall_mem_append] at h
    obtain ⟨first, hfirst, hnode⟩ := exists_shows_nodeLines references depth hidden node h.1
    obtain ⟨others, hothers, hrest⟩ :=
      exists_shows_nodesLines references depth panels panels rest h.2
    refine ⟨first ++ others, ?_, ?_⟩
    · rw [nodesLines, hfirst, hothers]
      rfl
    · refine (hnode.append hrest).imp ?_
      intro elements h
      obtain ⟨_, after, rfl, ⟨element, rfl, helement⟩, hafter⟩ := h
      exact .cons helement hafter

end

end DocAtlas.Page
