import DocAtlas.Text.Range

/-!
# Blank characters

The blanks that layout may add or drop: the control characters from tab to carriage return and
from U+001C to U+001F, the space, and the spaces and line separators beyond ASCII.
-/

namespace DocAtlas.Text

/-- The blank code points. -/
def blankRanges : List (Nat × Nat) :=
  [(0x9, 0xd), (0x1c, 0x20), (0x85, 0x85), (0xa0, 0xa0), (0x1680, 0x1680), (0x2000, 0x200a),
   (0x2028, 0x2029), (0x202f, 0x202f), (0x205f, 0x205f), (0x3000, 0x3000)]

/-- Is the character a blank? -/
def isBlank (c : Char) : Bool :=
  inRanges blankRanges c.toNat

/-- Drop the blanks at the start. -/
def trimStart (s : List Char) : List Char :=
  s.dropWhile isBlank

/-- Drop the blanks at the end. -/
def trimEnd (s : List Char) : List Char :=
  (s.reverse.dropWhile isBlank).reverse

/-- Drop the blanks at both ends. -/
def trim (s : List Char) : List Char :=
  trimEnd (trimStart s)

/-- The text of a string without the blanks at both ends. -/
def trimmed (s : String) : String :=
  String.ofList (trim s.toList)

/-- The text of a string without the blanks at its end. -/
def trimmedEnd (s : String) : String :=
  String.ofList (trimEnd s.toList)

/-- A string, or nothing if it is empty. -/
def nonempty? (s : String) : Option String :=
  if s = "" then none else some s

/-- A text as a string, or nothing if it is empty. -/
def ofChars? : List Char → Option String
  | [] => none
  | s => some (String.ofList s)

end DocAtlas.Text
