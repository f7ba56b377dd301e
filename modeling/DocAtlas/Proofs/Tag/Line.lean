import DocAtlas.Proofs.Text.Trim
import DocAtlas.Tag.Line

/-!
# Written lines

An item of a comment block is a tag with its value or a piece of free text. It is written on a line
of its own behind a star. Whatever characters the value or the text is made of, reading the line
gives the item back: nothing in the line ends before the item does, and the first place that looks
like a tag or a text is the item itself.
-/

namespace DocAtlas.Tag

open DocAtlas.Text

/-- A text that can stand at the end of a line: it has no surrounding blanks, no newline and no end
of a block. -/
structure Phrase where
  text : String
  nonempty : text ≠ ""
  trimmed_eq : trimmed text = text
  oneLine : '\n' ∉ text.toList
  unclosed : ¬['*', '/'] <:+: text.toList

/-- The name of a tag, made of word characters. -/
structure Word where
  text : String
  nonempty : text ≠ ""
  all_isWord : text.toList.all isWord = true

/-- Does a text hold an `@` with a name and a blank behind it? -/
def HoldsTag (s : List Char) : Prop :=
  ∃ name blank, name ≠ [] ∧ (∀ c ∈ name, isWord c = true) ∧ isBlank blank = true ∧
    '@' :: (name ++ [blank]) <:+: s

/-- An item of a comment block: a tag with its value, or a piece of free text that is not taken for
a tag. -/
inductive Item where
  | tag (name : Word) (value : Phrase)
  | text (content : Phrase) (start : content.text.toList.head? ≠ some '@')
      (free : ¬HoldsTag content.text.toList)

/-- Every character of a name is a word character. -/
theorem Word.forall_isWord (name : Word) : ∀ c ∈ name.text.toList, isWord c = true :=
  List.all_eq_true.mp name.all_isWord

/-- A name holds word characters only. -/
theorem Word.notMem (name : Word) {c : Char} (hc : isWord c = false) : c ∉ name.text.toList := by
  intro hmem
  rw [name.forall_isWord c hmem] at hc
  exact Bool.noConfusion hc

namespace Phrase

variable (phrase : Phrase)

/-- A phrase has characters. -/
theorem toList_ne_nil : phrase.text.toList ≠ [] :=
  fun h => phrase.nonempty (String.toList_eq_nil_iff.mp h)

/-- No blanks surround the characters of a phrase. -/
theorem trim_toList : trim phrase.text.toList = phrase.text.toList :=
  Text.trim_toList phrase.trimmed_eq

/-- A line that ends with a phrase behind a space is read as a whole. -/
theorem body_append (lead : List Char) :
    Line.body (lead ++ ' ' :: phrase.text.toList) = lead ++ ' ' :: phrase.text.toList := by
  have htrim : trimEnd (lead ++ ' ' :: phrase.text.toList) = lead ++ ' ' :: phrase.text.toList := by
    simpa using trimEnd_append phrase.toList_ne_nil phrase.trim_toList (lead ++ [' '])
  rw [Line.body, htrim]
  split
  · -- The line cannot end with a delimiter: the phrase holds none, and a space precedes it.
    next rest heq =>
    obtain ⟨_, front, c, hchars, _⟩ := exists_ends_of_trim phrase.toList_ne_nil phrase.trim_toList
    rw [hchars] at heq
    simp only [List.reverse_append, List.reverse_cons, List.reverse_nil, List.nil_append,
      List.append_assoc, List.cons_append, List.cons.injEq] at heq
    obtain ⟨rfl, hfront⟩ := heq
    obtain rfl | ⟨front, d, rfl⟩ := List.eq_nil_or_concat' front
    · simp at hfront
    · rw [List.reverse_concat, List.cons_append, List.cons.injEq] at hfront
      obtain ⟨rfl, _⟩ := hfront
      exact absurd ⟨front, [], by simp [hchars]⟩ phrase.unclosed
  · rfl

/-- Behind a blank a phrase is found. -/
theorem afterBlanks_cons {c : Char} (hc : isBlank c = true) :
    Line.afterBlanks (c :: phrase.text.toList) = some phrase.text.toList := by
  have htrim := trimStart_append phrase.toList_ne_nil phrase.trim_toList []
  rw [List.append_nil] at htrim
  rw [Line.afterBlanks, if_pos hc, htrim]
  cases h : phrase.text.toList with
  | nil => exact absurd h phrase.toList_ne_nil
  | cons first rest => rfl

end Phrase

namespace Line

/-- What follows an `@` gives a tag only if it begins with a name and a blank. -/
theorem exists_of_tagAfterAt {s : List Char} {found : List Char × List Char}
    (h : tagAfterAt s = some found) :
    ∃ name blank after, name ≠ [] ∧ (∀ c ∈ name, isWord c = true) ∧ isBlank blank = true ∧
      s = name ++ blank :: after := by
  rw [tagAfterAt] at h
  split at h
  · contradiction
  · next hne =>
    obtain ⟨value, hvalue, _⟩ := Option.map_eq_some_iff.mp h
    have hsplit := List.takeWhile_append_dropWhile (p := isWord) (l := s)
    cases hrest : s.dropWhile isWord with
    | nil => simp [hrest, afterBlanks] at hvalue
    | cons blank after =>
      rw [hrest] at hvalue hsplit
      refine ⟨s.takeWhile isWord, blank, after, hne, ?_, ?_, hsplit.symm⟩
      · intro c hc
        exact List.all_eq_true.mp List.all_takeWhile c hc
      · by_contra hblank
        simp [afterBlanks, hblank] at hvalue

/-- A name, a space and a phrase behind an `@` are a tag. -/
theorem tagAfterAt_append (name : Word) (value : Phrase) :
    tagAfterAt (name.text.toList ++ ' ' :: value.text.toList) =
      some (name.text.toList, value.text.toList) := by
  have hspace : ¬isWord ' ' = true := by decide
  have htake : (name.text.toList ++ ' ' :: value.text.toList).takeWhile isWord =
      name.text.toList := by
    rw [List.takeWhile_append_of_pos name.forall_isWord, List.takeWhile_cons_of_neg hspace,
      List.append_nil]
  have hdrop : (name.text.toList ++ ' ' :: value.text.toList).dropWhile isWord =
      ' ' :: value.text.toList := by
    rw [List.dropWhile_append_of_pos name.forall_isWord, List.dropWhile_cons_of_neg hspace]
  rw [tagAfterAt, htake, hdrop, value.afterBlanks_cons (by decide)]
  cases hname : name.text.toList with
  | nil => exact absurd (String.toList_eq_nil_iff.mp hname) name.nonempty
  | cons first rest => rfl

/-- A text in which a tag is found holds one. -/
theorem holdsTag_of_findTag {s : List Char} {found : List Char × List Char}
    (h : findTag s = some found) : HoldsTag s := by
  have hlater {c : Char} {rest : List Char} (hrest : HoldsTag rest) : HoldsTag (c :: rest) := by
    obtain ⟨name, blank, hne, hname, hblank, hpart⟩ := hrest
    exact ⟨name, blank, hne, hname, hblank, hpart.trans (List.suffix_cons c rest).isInfix⟩
  induction s with
  | nil => simp [findTag] at h
  | cons c rest ih =>
    rw [findTag] at h
    split at h
    · next hc =>
      subst hc
      split at h
      · next result htag =>
        obtain ⟨name, blank, after, hne, hname, hblank, rfl⟩ := exists_of_tagAfterAt htag
        exact ⟨name, blank, hne, hname, hblank, [], after, by simp⟩
      · exact hlater (ih h)
    · exact hlater (ih h)

end Line

namespace Item

/-- How an item is written. -/
def content : Item → String
  | tag name value => "@" ++ name.text ++ " " ++ value.text
  | text content _ _ => content.text

/-- The line of an item. -/
def line (item : Item) : String :=
  " * " ++ item.content

/-- The occurrence that an item stands for. -/
def occurrence? : Item → Option Occurrence
  | tag name value =>
    some
      { line := "* @" ++ name.text ++ " " ++ value.text
        name := name.text
        description := value.text }
  | text .. => none

/-- The free text that an item stands for. -/
def text? : Item → Option String
  | tag .. => none
  | text content _ _ => some content.text

/-- The characters of the line of a tag. -/
theorem toList_line_tag (name : Word) (value : Phrase) :
    (tag name value).line.toList =
      ' ' :: '*' :: ' ' :: '@' :: (name.text.toList ++ ' ' :: value.text.toList) := by
  simp [line, content]

/-- The line of a tag is read as its occurrence. -/
theorem ofChars_line_tag (name : Word) (value : Phrase) :
    Line.ofChars (tag name value).line.toList =
      .tag
        { line := "* @" ++ name.text ++ " " ++ value.text
          name := name.text
          description := value.text } := by
  have hbody := value.body_append (' ' :: '*' :: ' ' :: '@' :: name.text.toList)
  simp only [List.cons_append] at hbody
  have htrim := trimEnd_append value.toList_ne_nil value.trim_toList
    ('*' :: ' ' :: '@' :: (name.text.toList ++ [' ']))
  have hline : String.ofList
      (trim (' ' :: '*' :: ' ' :: '@' :: (name.text.toList ++ ' ' :: value.text.toList))) =
      "* @" ++ name.text ++ " " ++ value.text := by
    rw [trim, trimStart, List.dropWhile_cons_of_pos (by decide),
      List.dropWhile_cons_of_neg (by decide)]
    simp only [List.cons_append, List.append_assoc, List.nil_append] at htrim
    rw [htrim, ← String.toList_inj]
    simp
  rw [Line.ofChars, toList_line_tag, hbody, Line.ofBody]
  simp [Line.findTag, Line.tagAfterAt_append, hline]

/-- The line of a text is read as that text. -/
theorem ofChars_line_text (content : Phrase) (start : content.text.toList.head? ≠ some '@')
    (free : ¬HoldsTag content.text.toList) :
    Line.ofChars (text content start free).line.toList = .text content.text.toList := by
  have hbody := content.body_append [' ', '*']
  have htag : Line.findTag content.text.toList = none := by
    cases h : Line.findTag content.text.toList with
    | none => rfl
    | some found => exact absurd (Line.holdsTag_of_findTag h) free
  have hchars : (text content start free).line.toList =
      [' ', '*'] ++ ' ' :: content.text.toList := by
    simp [line, Item.content]
  rw [Line.ofChars, hchars, hbody, Line.ofBody]
  simp [Line.findTag, htag, Line.findText, content.afterBlanks_cons (c := ' ') (by decide), start]

/-- The line of an item is read as the occurrence that the item stands for. -/
theorem occurrence?_ofChars_line (item : Item) :
    (Line.ofChars item.line.toList).occurrence? = item.occurrence? := by
  cases item with
  | tag name value => rw [ofChars_line_tag]; rfl
  | text content start free => rw [ofChars_line_text]; rfl

/-- The line of an item is read as the free text that the item stands for. -/
theorem text?_ofChars_line (item : Item) :
    (Line.ofChars item.line.toList).text? = item.text?.map String.toList := by
  cases item with
  | tag name value => rw [ofChars_line_tag]; rfl
  | text content start free => rw [ofChars_line_text]; rfl

/-- No blanks surround the free text that an item stands for, and it is not empty. -/
theorem trim_of_text? {item : Item} {s : String} (h : item.text? = some s) :
    s.toList ≠ [] ∧ trim s.toList = s.toList := by
  cases item with
  | tag name value => simp [text?] at h
  | text content start free =>
    obtain rfl := Option.some.inj h
    exact ⟨content.toList_ne_nil, content.trim_toList⟩

/-- The line of an item is one line. -/
theorem newline_notMem_line (item : Item) : '\n' ∉ item.line.toList := by
  cases item with
  | tag name value =>
    have hname : '\n' ∉ name.text.toList := name.notMem (by decide)
    simp [toList_line_tag, hname, value.oneLine]
  | text content start free =>
    simpa [line, Item.content] using content.oneLine

end Item

end DocAtlas.Tag
