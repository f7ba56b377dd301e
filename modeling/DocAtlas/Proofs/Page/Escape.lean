import DocAtlas.Page.Html
import DocAtlas.Text.Search
import Mathlib.Data.List.Basic

/-!
# Reading escaped texts

Escaping replaces five characters by character references. A reader that knows these references
gets the text back, whatever others it knows: every ampersand of an escaped text begins one of the
five. The brackets and quotes that markup is made of do not occur in an escaped text.
-/

namespace DocAtlas.Page

open DocAtlas.Text

/-- The characters that escaping replaces, each with its reference behind the ampersand. -/
def escapes : List (Char × List Char) :=
  [('&', "amp;".toList), ('<', "lt;".toList), ('>', "gt;".toList), ('\x22', "quot;".toList),
    ('\x27', "#x27;".toList)]

/-- Escaping keeps a character or writes its reference. -/
theorem escapeChar_cases (c : Char) :
    (∃ name, (c, name) ∈ escapes ∧ escapeChar c = '&' :: name) ∨
      (c ∉ ['&', '<', '>', '\x22'] ∧ escapeChar c = [c]) := by
  unfold escapeChar
  split_ifs with hamp hlt hgt hquote hapostrophe
  · exact .inl ⟨_, by rw [hamp]; decide, rfl⟩
  · exact .inl ⟨_, by rw [hlt]; decide, rfl⟩
  · exact .inl ⟨_, by rw [hgt]; decide, rfl⟩
  · exact .inl ⟨_, by rw [hquote]; decide, rfl⟩
  · exact .inl ⟨_, by rw [hapostrophe]; decide, rfl⟩
  · exact .inr ⟨by simp [hamp, hlt, hgt, hquote], rfl⟩

/-- Escaped texts hold no characters that markup is made of. -/
theorem not_mem_escape {c : Char} (hc : c ∈ ['<', '>', '\x22']) (s : String) :
    c ∉ (escape s).toList := by
  rw [escape, String.toList_ofList, List.mem_flatMap]
  intro h
  obtain ⟨d, _, hd⟩ := h
  have hnames : ∀ pair ∈ escapes, ∀ c ∈ '&' :: pair.2, c ∉ ['<', '>', '\x22'] := by
    simp [escapes]
  obtain ⟨name, hname, heq⟩ | ⟨hkept, heq⟩ := escapeChar_cases d
  · rw [heq] at hd
    exact hnames _ hname c hd hc
  · rw [heq, List.mem_singleton] at hd
    exact hkept (hd ▸ List.mem_cons_of_mem _ hc)

/-- A reader of character references. Given what follows the ampersand, it tells the letters that a
reference stands for and its length. It knows at least the references that escaping writes. -/
structure References where
  decode? : List Char → Option (List Char × ℕ)
  decode?_of_mem_escapes : ∀ {c : Char} {name : List Char}, (c, name) ∈ escapes →
    ∀ rest, decode? (name ++ rest) = some ([c], name.length)

namespace References

/-- The reader that knows no references but those that escaping writes. -/
def plain : References where
  decode? s :=
    escapes.findSome? fun (c, name) => (stripPrefix? name s).map fun _ => ([c], name.length)
  decode?_of_mem_escapes := by
    intro c name h rest
    simp only [escapes, List.mem_cons, Prod.mk.injEq, List.not_mem_nil, or_false] at h
    rcases h with ⟨rfl, rfl⟩ | ⟨rfl, rfl⟩ | ⟨rfl, rfl⟩ | ⟨rfl, rfl⟩ | ⟨rfl, rfl⟩ <;> rfl

variable (references : References)

/-- A text with its references replaced by what they stand for. -/
def unescape : List Char → List Char
  | [] => []
  | c :: rest =>
    if c = '&' then
      match references.decode? rest with
      | some (letters, length) => letters ++ unescape (rest.drop length)
      | none => '&' :: unescape rest
    else c :: unescape rest
termination_by s => s.length
decreasing_by all_goals simp only [List.length_drop, List.length_cons]; omega

/-- A text without references stays as it is. -/
theorem unescape_of_forall {s : List Char} (h : ∀ c ∈ s, c ≠ '&') :
    references.unescape s = s := by
  induction s with
  | nil => rw [unescape]
  | cons c rest ih =>
    rw [List.forall_mem_cons] at h
    rw [unescape, if_neg h.1, ih h.2]

/-- Unescaping undoes escaping. -/
theorem unescape_escape (s : String) : references.unescape (escape s).toList = s.toList := by
  rw [escape, String.toList_ofList]
  induction s.toList with
  | nil => rw [List.flatMap_nil, unescape]
  | cons c rest ih =>
    rw [List.flatMap_cons]
    obtain ⟨name, hname, heq⟩ | ⟨hc, heq⟩ := escapeChar_cases c
    · rw [heq, List.cons_append, unescape, if_pos rfl, references.decode?_of_mem_escapes hname]
      simp only [List.drop_left, ih, List.singleton_append]
    · have hamp : c ≠ '&' := fun h => hc (h ▸ List.mem_cons_self)
      rw [heq, List.singleton_append, unescape, if_neg hamp, ih]

end References

end DocAtlas.Page
