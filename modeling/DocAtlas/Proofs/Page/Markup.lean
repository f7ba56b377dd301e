import DocAtlas.Proofs.Page.Escape
import DocAtlas.Proofs.Text.Pieces

/-!
# Reading markup

Markup is cut at its angle brackets into tags and the texts behind them. The tags are read from left
to right with a stack of open elements, and every closing tag has to fit the element that was opened
last. What comes out is a list of elements if and only if the tags are those of the elements in
order, so reading accepts balanced tags only and loses nothing.
-/

namespace DocAtlas.Page

open DocAtlas.Text

namespace Markup

/-- What an opening tag says: its name, its attributes with their values in the order in which they
are written, and behind them the flags, which are attributes without value. -/
structure OpeningTag where
  name : String
  attributes : List (String × String)
  flags : List String

/-- A tag. -/
inductive Tag where
  | opening (tag : OpeningTag)
  | closing (name : String)

/-- An element: the tag that opens it, the text behind that tag, the elements inside, and the text
behind the closing tag. -/
structure Element where
  tag : OpeningTag
  text : String
  elements : List Element
  tail : String

mutual

/-- The tags of an element, each with the text behind it. -/
def Element.parts : Element → List (Tag × String)
  | { tag, text, elements, tail } =>
    (.opening tag, text) :: Element.partsAll elements ++ [(.closing tag.name, tail)]

/-- The tags of elements, each with the text behind it. -/
def Element.partsAll : List Element → List (Tag × String)
  | [] => []
  | element :: rest => element.parts ++ Element.partsAll rest

end

/-- The tags of elements are those of one after the other. -/
theorem Element.partsAll_append (first second : List Element) :
    partsAll (first ++ second) = partsAll first ++ partsAll second := by
  induction first with
  | nil => rfl
  | cons element rest ih => rw [List.cons_append, partsAll, partsAll, ih, List.append_assoc]

/-! ### The stack of open elements -/

/-- An element that is still open, with the elements before it that are inside the same element. -/
structure Frame where
  tag : OpeningTag
  text : String
  before : List Element

/-- What the tags that are read so far amount to: the open elements, the innermost one first, and
the elements inside the innermost one. -/
structure Reading where
  frames : List Frame
  elements : List Element

namespace Reading

/-- Nothing is read. -/
def start : Reading where
  frames := []
  elements := []

/-- Read a tag and the text behind it. -/
def place (reading : Reading) : Tag × String → Option Reading
  | (.opening tag, text) =>
    some { frames := { tag, text, before := reading.elements } :: reading.frames, elements := [] }
  | (.closing name, tail) =>
    match reading.frames with
    | [] => none
    | { tag, text, before } :: frames =>
      if tag.name = name then
        some { frames, elements := before ++ [{ tag, text, elements := reading.elements, tail }] }
      else none

/-- The tags that are read so far. -/
def parts (reading : Reading) : List (Tag × String) :=
  (reading.frames.reverse.flatMap fun frame =>
    Element.partsAll frame.before ++ [(.opening frame.tag, frame.text)]) ++
    Element.partsAll reading.elements

/-- Reading a tag adds it to the tags that are read. -/
theorem parts_of_place {reading next : Reading} {part : Tag × String}
    (h : reading.place part = some next) : next.parts = reading.parts ++ [part] := by
  obtain ⟨frames, elements⟩ := reading
  obtain ⟨tag | name, text⟩ := part
  · obtain rfl := Option.some.inj h
    simp [parts, Element.partsAll]
  · cases frames with
    | nil => simp [place] at h
    | cons frame frames =>
      simp only [place, Option.ite_none_right_eq_some, Option.some.injEq] at h
      obtain ⟨rfl, rfl⟩ := h
      simp [parts, Element.partsAll_append, Element.partsAll, Element.parts]

/-- Reading tags adds them to the tags that are read. -/
theorem parts_of_foldlM_place {reading next : Reading} {read : List (Tag × String)}
    (h : read.foldlM place reading = some next) : next.parts = reading.parts ++ read := by
  induction read generalizing reading with
  | nil =>
    obtain rfl := Option.some.inj h
    rw [List.append_nil]
  | cons part rest ih =>
    rw [List.foldlM_cons, Option.bind_eq_bind, Option.bind_eq_some_iff] at h
    obtain ⟨between, hpart, hrest⟩ := h
    rw [ih hrest, parts_of_place hpart, List.append_assoc, List.singleton_append]

mutual

/-- Reading the tags of an element puts it behind the elements that are read. -/
theorem foldlM_place_parts (frames : List Frame) (before : List Element) :
    (element : Element) →
      element.parts.foldlM place { frames, elements := before } =
        some { frames, elements := before ++ [element] }
  | { tag, text, elements, tail } => by
    rw [Element.parts, List.cons_append, List.foldlM_cons, place, Option.bind_eq_bind,
      Option.bind_some, List.foldlM_append, foldlM_place_partsAll _ [] elements]
    simp [place]

/-- Reading the tags of elements puts them behind the elements that are read. -/
theorem foldlM_place_partsAll (frames : List Frame) (before : List Element) :
    (elements : List Element) →
      (Element.partsAll elements).foldlM place { frames, elements := before } =
        some { frames, elements := before ++ elements }
  | [] => by simp [Element.partsAll]
  | element :: rest => by
    rw [Element.partsAll, List.foldlM_append, foldlM_place_parts frames before element,
      Option.bind_eq_bind, Option.bind_some, foldlM_place_partsAll frames _ rest,
      List.append_assoc, List.singleton_append]

end

end Reading

/-- The elements that tags make up; nothing if the tags are not balanced. -/
def build? (parts : List (Tag × String)) : Option (List Element) := do
  let reading ← parts.foldlM Reading.place .start
  if reading.frames.isEmpty then some reading.elements else none

/-- Tags make up elements exactly if they are the tags of these elements. -/
theorem build?_eq_some_iff {parts : List (Tag × String)} {elements : List Element} :
    build? parts = some elements ↔ parts = Element.partsAll elements := by
  constructor
  · intro h
    simp only [build?, Option.bind_eq_bind, Option.bind_eq_some_iff,
      Option.ite_none_right_eq_some, Option.some.injEq, List.isEmpty_iff] at h
    obtain ⟨reading, hreading, hframes, rfl⟩ := h
    have hparts := Reading.parts_of_foldlM_place hreading
    simpa [Reading.parts, hframes, Reading.start, Element.partsAll] using hparts.symm
  · intro h
    rw [h, build?, Reading.start, Reading.foldlM_place_partsAll]
    rfl

/-! ### Tags -/

/-- May a letter stand in the name of a tag or an attribute? -/
def isNameChar (c : Char) : Bool :=
  c.isAlphanum || c == '-'

/-- May a text be the name of a tag or an attribute? -/
def isName (s : String) : Bool :=
  s.toList.all isNameChar

/-- A name holds no other letters. -/
theorem not_mem_name {c : Char} (hc : isNameChar c = false) {name : String}
    (h : isName name = true) : c ∉ name.toList := by
  intro hmem
  simp [List.all_eq_true.mp h c hmem] at hc

namespace OpeningTag

/-- An attribute as it is written in a tag. -/
def attributeChars (pair : String × String) : List Char :=
  (' ' :: pair.1.toList ++ ['=']) ++ '\x22' :: ((escape pair.2).toList ++ ['\x22'])

/-- A flag as it is written in a tag. -/
def flagChars (flag : String) : List Char :=
  ' ' :: flag.toList

/-- What stands between the angle brackets of a tag. -/
def chars (tag : OpeningTag) : List Char :=
  tag.name.toList ++ (tag.attributes.flatMap attributeChars ++ tag.flags.flatMap flagChars)

/-- A tag whose names are names. Nothing is said of the values. -/
structure Named (tag : OpeningTag) : Prop where
  nonempty : tag.name ≠ ""
  name : isName tag.name = true
  attributes : ∀ pair ∈ tag.attributes, isName pair.1 = true
  flags : ∀ flag ∈ tag.flags, isName flag = true

/-- A tag holds no angle brackets. -/
theorem Named.not_mem_chars {tag : OpeningTag} (h : tag.Named) {c : Char} (hc : c ∈ ['<', '>']) :
    c ∉ tag.chars := by
  have hname : isNameChar c = false := by
    rcases List.mem_pair.mp hc with rfl | rfl <;> decide
  have hmark : c ∉ [' ', '=', '\x22'] := by
    rcases List.mem_pair.mp hc with rfl | rfl <;> decide
  have hescape : c ∈ ['<', '>', '\x22'] := List.mem_append_left ['\x22'] hc
  rw [chars, List.mem_append, List.mem_append, List.mem_flatMap, List.mem_flatMap]
  intro hmem
  rcases hmem with hmem | ⟨pair, hpair, hmem⟩ | ⟨flag, hflag, hmem⟩
  · exact not_mem_name hname h.name hmem
  · have hlabel := not_mem_name hname (h.attributes pair hpair)
    have hvalue := not_mem_escape hescape pair.2
    simp_all [attributeChars]
  · have hflag := not_mem_name hname (h.flags flag hflag)
    simp_all [flagChars]

end OpeningTag

/-- The name of an attribute, from what stands before its value. -/
def label? : List Char → Option String
  | ' ' :: label =>
    match splitWhere (· == '=') label with
    | [name, []] => if name.all isNameChar then some (String.ofList name) else none
    | _ => none
  | _ => none

/-- The flags of a tag, from what stands behind its last value. -/
def flags? (s : List Char) : Option (List String) :=
  match splitWhere (· == ' ') s with
  | [] :: flags => some (flags.map String.ofList)
  | _ => none

/-- The name of an attribute is read back. -/
theorem label?_chars {name : String} (h : isName name = true) :
    label? (' ' :: name.toList ++ ['=']) = some name := by
  have hsplit : splitWhere (· == '=') (name.toList ++ ['=']) = [name.toList, []] :=
    splitWhere_append_cons_of_not_mem (not_mem_name (by decide) h) []
  have hall : name.toList.all isNameChar = true := h
  simp only [label?, List.cons_append, hsplit, hall, ↓reduceIte, String.ofList_toList]

/-- A text without blanks and flags behind it are cut at the flags. -/
theorem splitWhere_append_flags {flags : List String} (h : ∀ flag ∈ flags, isName flag = true)
    {s : List Char} (hs : ' ' ∉ s) :
    splitWhere (· == ' ') (s ++ flags.flatMap OpeningTag.flagChars) =
      s :: flags.map String.toList := by
  induction flags generalizing s with
  | nil => rw [List.flatMap_nil, List.append_nil, splitWhere_of_not_mem hs, List.map_nil]
  | cons flag rest ih =>
    rw [List.forall_mem_cons] at h
    rw [List.flatMap_cons, OpeningTag.flagChars, List.cons_append,
      splitWhere_append_cons_of_not_mem hs, ih h.2 (not_mem_name (by decide) h.1), List.map_cons]

/-- The flags of a tag are read back. -/
theorem flags?_flatMap_flagChars {flags : List String} (h : ∀ flag ∈ flags, isName flag = true) :
    flags? (flags.flatMap OpeningTag.flagChars) = some flags := by
  have hsplit := splitWhere_append_flags h List.not_mem_nil
  rw [List.nil_append] at hsplit
  simp [flags?, hsplit, Function.comp_def]

end Markup

namespace References

open Markup

variable (references : References)

/-- The attributes and flags of a tag, from the texts between its quotes: before each value stands
its name, and behind the last one there are the flags. -/
def attributes? : List (List Char) → Option (List (String × String) × List String)
  | [] => none
  | [last] => (flags? last).map fun flags => ([], flags)
  | label :: value :: rest => do
    let name ← label? label
    let (attributes, flags) ← attributes? rest
    some ((name, String.ofList (references.unescape value)) :: attributes, flags)

/-- A tag, from what stands between its angle brackets. -/
def tag? (s : List Char) : Option Tag :=
  if s.head? = some '/' then some (.closing (String.ofList s.tail))
  else
    (references.attributes? (splitWhere (· == '\x22') (s.dropWhile (· != ' ')))).map
      fun (attributes, flags) =>
        .opening { name := String.ofList (s.takeWhile (· != ' ')), attributes, flags }

/-- A tag and the text behind it, from what stands between two opening brackets. -/
def part? (s : List Char) : Option (Tag × String) :=
  match splitWhere (· == '>') s with
  | [tag, text] =>
    (references.tag? tag).map fun tag => (tag, String.ofList (references.unescape text))
  | _ => none

/-- What stands before the first tag, and all tags with the texts behind them. -/
def parts? (s : List Char) : Option (List Char × List (Tag × String)) :=
  match splitWhere (· == '<') s with
  | [] => none
  | lead :: rest =>
    if '>' ∈ lead then none else (rest.mapM references.part?).map fun parts => (lead, parts)

/-- What stands before the first element of a markup, and its elements. -/
def read? (s : String) : Option (String × List Element) := do
  let (lead, parts) ← references.parts? s.toList
  let elements ← build? parts
  some (String.ofList (references.unescape lead), elements)

/-- The attributes and flags of a tag are read back. -/
theorem attributes?_splitWhere {attributes : List (String × String)} {flags : List String}
    (hattributes : ∀ pair ∈ attributes, isName pair.1 = true)
    (hflags : ∀ flag ∈ flags, isName flag = true) :
    references.attributes? (splitWhere (· == '\x22')
      (attributes.flatMap OpeningTag.attributeChars ++ flags.flatMap OpeningTag.flagChars)) =
        some (attributes, flags) := by
  induction attributes with
  | nil =>
    have hquote : '\x22' ∉ flags.flatMap OpeningTag.flagChars := by
      intro hmem
      obtain ⟨flag, hflag, hmem⟩ := List.mem_flatMap.mp hmem
      rcases List.mem_cons.mp hmem with heq | hmem
      · simp at heq
      · exact not_mem_name (by decide) (hflags flag hflag) hmem
    rw [List.flatMap_nil, List.nil_append, splitWhere_of_not_mem hquote, attributes?,
      flags?_flatMap_flagChars hflags, Option.map_some]
  | cons pair rest ih =>
    rw [List.forall_mem_cons] at hattributes
    have hlabel : '\x22' ∉ ' ' :: pair.1.toList ++ ['='] := by
      simpa using not_mem_name (by decide) hattributes.1
    have hvalue : '\x22' ∉ (escape pair.2).toList := not_mem_escape (by decide) pair.2
    have hchars (s : List Char) : OpeningTag.attributeChars pair ++ s =
        (' ' :: pair.1.toList ++ ['=']) ++ '\x22' :: ((escape pair.2).toList ++ '\x22' :: s) := by
      simp [OpeningTag.attributeChars]
    rw [List.flatMap_cons, List.append_assoc, hchars, splitWhere_append_cons_of_not_mem hlabel,
      splitWhere_append_cons_of_not_mem hvalue, attributes?, label?_chars hattributes.1,
      ih hattributes.2, references.unescape_escape]
    simp

/-- An opening tag is read back. -/
theorem tag?_chars {tag : OpeningTag} (h : tag.Named) :
    references.tag? tag.chars = some (.opening tag) := by
  have hname : ∀ c ∈ tag.name.toList, (c != ' ') = true := by
    intro c hc
    rw [bne_iff_ne]
    intro heq
    exact not_mem_name (by decide) h.name (heq ▸ hc)
  -- Behind the name there is nothing, or a blank.
  have hrest (attributes : List (String × String)) (flags : List String) :
      let rest := attributes.flatMap OpeningTag.attributeChars ++
        flags.flatMap OpeningTag.flagChars
      rest.takeWhile (· != ' ') = [] ∧ rest.dropWhile (· != ' ') = rest := by
    cases attributes with
    | nil => cases flags <;> exact ⟨rfl, rfl⟩
    | cons pair rest => exact ⟨rfl, rfl⟩
  have hslash : tag.chars.head? ≠ some '/' := by
    have hnot : '/' ∉ tag.name.toList := not_mem_name (by decide) h.name
    cases hcase : tag.name.toList with
    | nil => exact absurd (String.toList_eq_nil_iff.mp hcase) h.nonempty
    | cons c rest =>
      rw [hcase, List.mem_cons, not_or] at hnot
      rw [OpeningTag.chars, hcase, List.cons_append, List.head?_cons, Ne, Option.some.injEq]
      exact Ne.symm hnot.1
  rw [tag?, if_neg hslash, OpeningTag.chars, List.takeWhile_append_of_pos hname,
    List.dropWhile_append_of_pos hname, (hrest _ _).1, (hrest _ _).2,
    references.attributes?_splitWhere h.attributes h.flags, List.append_nil]
  simp only [Option.map_some, String.ofList_toList]

/-- A closing tag is read back. -/
theorem tag?_closing (name : String) :
    references.tag? ('/' :: name.toList) = some (.closing name) := by
  rw [tag?, List.head?_cons, if_pos rfl, List.tail_cons, String.ofList_toList]

/-- What it means that a markup is cut into parts. -/
theorem parts?_eq_some_iff {s lead : List Char} {parts : List (Tag × String)} :
    references.parts? s = some (lead, parts) ↔ ∃ rest,
      splitWhere (· == '<') s = lead :: rest ∧ '>' ∉ lead ∧
        rest.mapM references.part? = some parts := by
  rw [parts?]
  cases h : splitWhere (· == '<') s with
  | nil => simp
  | cons first rest =>
    simp only [Option.ite_none_left_eq_some, Option.map_eq_some_iff, Prod.mk.injEq,
      List.cons.injEq]
    constructor
    · intro hparts
      obtain ⟨hnot, found, hfound, rfl, rfl⟩ := hparts
      exact ⟨rest, ⟨rfl, rfl⟩, hnot, hfound⟩
    · intro hparts
      obtain ⟨_, ⟨rfl, rfl⟩, hnot, hfound⟩ := hparts
      exact ⟨hnot, parts, hfound, rfl, rfl⟩

variable {s lead : List Char} {parts : List (Tag × String)}

/-- A text without angle brackets goes before the first tag. -/
theorem parts?_append {text : List Char} (hopen : '<' ∉ text) (hclose : '>' ∉ text)
    (h : references.parts? s = some (lead, parts)) :
    references.parts? (text ++ s) = some (text ++ lead, parts) := by
  obtain ⟨rest, hsplit, hlead, hparts⟩ := references.parts?_eq_some_iff.mp h
  refine references.parts?_eq_some_iff.mpr ⟨rest, ?_, ?_, hparts⟩
  · exact splitWhere_append_of_not_mem hopen hsplit
  · rw [List.mem_append, not_or]
    exact ⟨hclose, hlead⟩

/-- A text without angle brackets is all before the first tag of what follows it. -/
theorem exists_of_parts?_append {text : List Char} (hopen : '<' ∉ text)
    (h : references.parts? (text ++ s) = some (lead, parts)) :
    ∃ rest, lead = text ++ rest ∧ references.parts? s = some (rest, parts) := by
  obtain ⟨pieces, hsplit, hlead, hparts⟩ := references.parts?_eq_some_iff.mp h
  cases hs : splitWhere (· == '<') s with
  | nil => exact absurd hs (splitWhere_ne_nil _ s)
  | cons first rest =>
    rw [splitWhere_append_of_not_mem hopen hs, List.cons.injEq] at hsplit
    obtain ⟨rfl, rfl⟩ := hsplit
    rw [List.mem_append, not_or] at hlead
    exact ⟨first, rfl, references.parts?_eq_some_iff.mpr ⟨rest, hs, hlead.2, hparts⟩⟩

/-- A tag goes before the other tags, and what stood before them is the text behind it. -/
theorem parts?_tag {body : List Char} {tag : Tag} (hopen : '<' ∉ body) (hclose : '>' ∉ body)
    (htag : references.tag? body = some tag) (h : references.parts? s = some (lead, parts)) :
    references.parts? ('<' :: body ++ '>' :: s) =
      some ([], (tag, String.ofList (references.unescape lead)) :: parts) := by
  obtain ⟨rest, hsplit, hlead, hparts⟩ := references.parts?_eq_some_iff.mp h
  refine references.parts?_eq_some_iff.mpr ⟨(body ++ '>' :: lead) :: rest, ?_, by simp, ?_⟩
  · have hbody : '<' ∉ body ++ ['>'] := by simpa using hopen
    have hnext := splitWhere_append_of_not_mem hbody hsplit
    rw [List.append_assoc, List.append_assoc, List.singleton_append, List.singleton_append] at hnext
    rw [← hnext]
    exact splitWhere_append_cons_of_not_mem List.not_mem_nil (body ++ '>' :: s)
  · have hpart : references.part? (body ++ '>' :: lead) =
        some (tag, String.ofList (references.unescape lead)) := by
      rw [part?, splitWhere_append_cons_of_not_mem hclose, splitWhere_of_not_mem hlead]
      simp only [htag, Option.map_some]
    rw [List.mapM_cons, hpart, hparts]
    rfl

end References

end DocAtlas.Page
