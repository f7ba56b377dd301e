import DocAtlas.Proofs.Page.Roots
import DocAtlas.Proofs.Tag.Requirement

/-!
# The list of requirements

The requirements of an entry come from values that stand in the sources, and the line of each of them
shows its name or else its description. So a line shows a text from the sources, unless the value
loses its text. Then the line says `None`.
-/

namespace DocAtlas.Page

open DocAtlas.Element DocAtlas.Tag DocAtlas.Text

/-- What the line of a requirement shows: its name, or else its description. -/
def shown? (r : Requirement) : Option String :=
  r.name.or r.description

/-- A line shows the class of a requirement and what there is to be shown. -/
theorem requirementLine_eq {value : List Char} {r : Requirement} (h : r.TellsOf value) :
    requirementLine r = "- " ++ spelled r.type ++ ": " ++ spelled (shown? r) := by
  have hname : r.name.bind nonempty? = r.name := by
    cases hname : r.name with
    | none => rfl
    | some text => exact if_neg (h.name text hname).1
  rw [requirementLine, hname, shown?]

/-- What is shown of a requirement is taken from its value. -/
theorem of_shown?_eq_some {value : List Char} {r : Requirement} (h : r.TellsOf value) {text : String}
    (hshown : shown? r = some text) : text ≠ "" ∧ Requirement.IsTaken value text := by
  rcases Option.or_eq_some_iff.mp hshown with hname | ⟨-, hdescription⟩
  · exact h.name text hname
  · exact h.description text hdescription

/-- Every requirement of a linked entry is made of a value that stands in the sources. -/
theorem exists_value_of_mem_requires {supply : ℕ → String} {sources : List SourceFile} {entry : Entry}
    (hentry : entry ∈ (Atlas.link (Comment.extract supply .doc sources)).entries) {r : Requirement}
    (hr : r ∈ entry.requires) :
    ∃ value : String, r = .classify entry.id value ∧ value ≠ "" ∧ trimmed value = value ∧
      ∃ source ∈ sources, value.toList <:+: source.content.toList := by
  obtain ⟨place, hplace⟩ := List.mem_iff_getElem?.mp hentry
  obtain ⟨comment, hcomment, children, rfl⟩ := Atlas.exists_of_getElem?_link _ hplace
  obtain ⟨value, hvalue, rfl⟩ := List.mem_map.mp hr
  obtain ⟨phrase, rfl, hsource⟩ := Comment.exists_source_of_mem_values hcomment hvalue
  exact ⟨phrase.text, rfl, phrase.nonempty, phrase.trimmed_eq, hsource⟩

/-- A value that is not empty and without surrounding blanks gives a requirement with a name or a
description exactly if it does not lose its text. The line of every requirement of a linked entry
comes from such a value in the sources: it shows a text that is taken from the value, or `None` if the
value loses its text. -/
theorem requirement_shown (supply : ℕ → String) (sources : List SourceFile) :
    (∀ id value : String, value ≠ "" → trimmed value = value →
      ((Requirement.classify id value).name = none ∧
        (Requirement.classify id value).description = none ↔ Requirement.Loses value.toList)) ∧
    ∀ entry ∈ (Atlas.link (Comment.extract supply .doc sources)).entries, ∀ r ∈ entry.requires,
      ∃ value type text : String, r = .classify entry.id value ∧ value ≠ "" ∧
        trimmed value = value ∧ (∃ source ∈ sources, value.toList <:+: source.content.toList) ∧
        requirementLine r = "- " ++ type ++ ": " ++ text ∧
        (Requirement.Loses value.toList → text = "None") ∧
        (¬Requirement.Loses value.toList → text ≠ "" ∧ Requirement.IsTaken value.toList text) := by
  constructor
  · intro id value hne htrim
    exact Requirement.classify_eq_none_iff id hne htrim
  · intro entry hentry r hr
    obtain ⟨value, rfl, hne, htrim, hsource⟩ := exists_value_of_mem_requires hentry hr
    have hnone := Requirement.classify_eq_none_iff entry.id hne htrim
    have htells := Requirement.tellsOf_classify entry.id value
    obtain ⟨type, htype⟩ := htells.type
    refine ⟨value, type, spelled (shown? (.classify entry.id value)), rfl, hne, htrim, hsource, ?_,
      fun hloses => ?_, fun hkeeps => ?_⟩
    · rw [requirementLine_eq htells, htype]
      rfl
    · obtain ⟨hname, hdescription⟩ := hnone.mpr hloses
      rw [shown?, hname, hdescription]
      rfl
    · cases hshown : shown? (.classify entry.id value) with
      | none => exact absurd (hnone.mp (Option.or_eq_none_iff.mp hshown)) hkeeps
      | some text => exact of_shown?_eq_some htells hshown

/-- A line that is looked for is found among the requirements of an entry. -/
theorem exists_requirementLine_eq {entries : List Entry} {line : String}
    (h : (entries.any fun entry => entry.requires.any fun r => requirementLine r = line) = true) :
    ∃ entry ∈ entries, ∃ r ∈ entry.requires, requirementLine r = line := by
  obtain ⟨entry, hentry, hrequires⟩ := List.any_eq_true.mp h
  obtain ⟨r, hr, hline⟩ := List.any_eq_true.mp hrequires
  exact ⟨entry, hentry, r, hr, of_decide_eq_true hline⟩

/-- A source with one comment that requires the given value. -/
def requiringSource (value : String) : SourceFile where
  path := "a.ts"
  content := "/** @requires " ++ value ++ " */"
  created := ""
  modified := ""

/-- A link with an empty address and a name with a brace in it. -/
def bracedLink : String := "https://nodejs.org/api \x7b@link  | No\x7dne\x7d"

/-- The name is shown without its braces, though it then reads like a text that is absent. -/
theorem requirement_shown_braced :
    bracedLink ≠ "" ∧ trimmed bracedLink = bracedLink ∧ ¬Requirement.Loses bracedLink.toList ∧
    ∃ entry ∈ (Atlas.link (Comment.extract Nat.repr .doc [requiringSource bracedLink])).entries,
      ∃ r ∈ entry.requires, requirementLine r = "- node-module: None" ∧
        ∃ value type text : String, r = .classify entry.id value ∧
          requirementLine r = "- " ++ type ++ ": " ++ text ∧
          (¬Requirement.Loses value.toList → text ≠ "" ∧ Requirement.IsTaken value.toList text) := by
  have hne : bracedLink ≠ "" := by decide
  have htrim : trimmed bracedLink = bracedLink := by decide +kernel
  have hkeeps : (Requirement.classify "c1" bracedLink).name ≠ none := by decide +kernel
  have hline :
      ∃ entry ∈ (Atlas.link (Comment.extract Nat.repr .doc [requiringSource bracedLink])).entries,
        ∃ r ∈ entry.requires, requirementLine r = "- node-module: None" :=
    exists_requirementLine_eq (by decide +kernel)
  obtain ⟨entry, hentry, r, hr, hline⟩ := hline
  have hshown := requirement_shown Nat.repr [requiringSource bracedLink]
  obtain ⟨value, type, text, hvalue, -, -, -, heq, -, htaken⟩ :=
    hshown.2 entry hentry r hr
  refine ⟨hne, htrim, fun hloses => ?_, entry, hentry, r, hr, hline, value, type, text, hvalue, heq, htaken⟩
  exact hkeeps ((hshown.1 "c1" bracedLink hne htrim).mpr hloses).1

/-- The bare address of a module of the platform leaves neither a name nor a description, and its line
says `None`, which does not stand in the source. -/
theorem requirement_none :
    let address := "https://nodejs.org/api/fs.html"
    address ≠ "" ∧ trimmed address = address ∧
    (Requirement.classify "c1" address).name = none ∧
    (Requirement.classify "c1" address).description = none ∧
    ¬"None".toList <:+: (requiringSource address).content.toList ∧
    ∃ entry ∈ (Atlas.link (Comment.extract Nat.repr .doc [requiringSource address])).entries,
      ∃ r ∈ entry.requires, requirementLine r = "- node-module: None" := by
  intro address
  exact ⟨by decide, by decide +kernel, by decide +kernel, by decide +kernel, by decide +kernel,
    exists_requirementLine_eq (by decide +kernel)⟩

end DocAtlas.Page
