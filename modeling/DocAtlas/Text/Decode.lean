import DocAtlas.Text.Search

/-!
# Decoding files

A file is read as UTF-8 text. Line ends are unified; a byte order mark is kept as a character.
-/

namespace DocAtlas.Text

/-- The text of a file with unified line ends, nothing if it is not UTF-8. -/
def decode? (bytes : ByteArray) : Option String :=
  (String.fromUTF8? bytes).map fun s => String.ofList (unifyNewlines s.toList)

/-- Bytes are read as the text that they encode, with unified line ends. -/
theorem decode?_eq_some_iff {bytes : ByteArray} {content : String} :
    decode? bytes = some content ↔
      ∃ text : String, text.toUTF8 = bytes ∧
        content = String.ofList (unifyNewlines text.toList) := by
  rw [decode?, Option.map_eq_some_iff]
  constructor
  · intro h
    obtain ⟨text, htext, rfl⟩ := h
    rw [String.fromUTF8?] at htext
    split at htext
    · obtain rfl := Option.some.inj htext
      exact ⟨_, rfl, rfl⟩
    · cases htext
  · intro h
    obtain ⟨text, rfl, rfl⟩ := h
    refine ⟨text, ?_, rfl⟩
    rw [String.fromUTF8?, String.toUTF8_eq_toByteArray, dif_pos text.isValidUTF8]
    rfl

/-- A text without carriage returns has its lines ended as they are. -/
theorem unifyNewlines_of_notMem {s : List Char} (h : '\r' ∉ s) : unifyNewlines s = s := by
  induction s with
  | nil => rfl
  | cons c rest ih =>
    rw [List.mem_cons, not_or] at h
    rw [unifyNewlines, if_neg (Ne.symm h.1), ih h.2]
    exact fun _ heq => absurd heq.symm h.1

/-- The bytes of a text without carriage returns are read as that text. -/
theorem decode?_toUTF8 {text : String} (h : '\r' ∉ text.toList) :
    decode? text.toUTF8 = some text := by
  refine decode?_eq_some_iff.mpr ⟨text, rfl, ?_⟩
  rw [unifyNewlines_of_notMem h, String.ofList_toList]

end DocAtlas.Text
