/-!
# Loose strings

An escape can name half of a surrogate pair. Such a half is no character and has no encoding, so a
text that holds one can be compared with other texts, but neither printed nor written to a file. A
loose string is a string in which halves of surrogate pairs may stand alone.
-/

namespace DocAtlas.Text

/-- A letter of a loose string: a character, or half of a surrogate pair with its UTF-16 unit. -/
inductive Letter where
  | char (c : Char)
  | half (unit : Nat)
deriving DecidableEq

/-- The characters of letters, nothing if there is a half among them. -/
def chars? : List Letter → Option (List Char)
  | [] => some []
  | .char c :: rest => (chars? rest).map (c :: ·)
  | .half _ :: _ => none

/-- Letters that are characters are read as these characters. -/
theorem chars?_map_char (s : List Char) : chars? (s.map .char) = some s := by
  induction s with
  | nil => rfl
  | cons c s ih => simp [chars?, ih]

/-- Letters with characters for all of them are these characters. -/
theorem eq_map_char_of_chars? {letters : List Letter} {s : List Char}
    (h : chars? letters = some s) : letters = s.map .char := by
  induction letters generalizing s with
  | nil =>
    simp only [chars?, Option.some.injEq] at h
    simp [← h]
  | cons first rest ih =>
    cases first with
    | half unit => simp [chars?] at h
    | char c =>
      obtain ⟨tail, htail, rfl⟩ := Option.map_eq_some_iff.mp h
      simp [ih htail]

/-- A string in which halves of surrogate pairs may stand alone. -/
structure LooseString where
  letters : List Letter
deriving DecidableEq

namespace LooseString

/-- A string as a loose string. -/
def ofString (s : String) : LooseString :=
  ⟨s.toList.map .char⟩

instance : Coe String LooseString := ⟨ofString⟩

/-- The string that a loose string is, nothing if a half stands alone in it. -/
def toString? (s : LooseString) : Option String :=
  (chars? s.letters).map String.ofList

/-- The string with the replacement character in the place of every half. -/
def mended (s : LooseString) : String :=
  String.ofList (s.letters.map fun
    | .char c => c
    | .half _ => Char.ofNat 0xfffd)

/-- A string is kept by going through a loose string. -/
theorem toString?_ofString (s : String) : (ofString s).toString? = some s := by
  simp [toString?, ofString, chars?_map_char]

/-- A loose string that is a string comes from it. -/
theorem eq_ofString_of_toString? {loose : LooseString} {s : String}
    (h : loose.toString? = some s) : loose = ofString s := by
  obtain ⟨chars, hchars, rfl⟩ := Option.map_eq_some_iff.mp h
  obtain ⟨letters⟩ := loose
  have hletters : letters = chars.map .char := eq_map_char_of_chars? hchars
  simp [ofString, hletters]

end LooseString

end DocAtlas.Text
