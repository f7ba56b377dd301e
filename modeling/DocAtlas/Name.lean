import DocAtlas.Text.Loose

/-!
# Names of files

A file system knows a name by its bytes. Most names are texts, by their UTF-8 bytes. A loose string
can spell the other names too: a half of a surrogate pair from `dc80` to `dcff` stands for one byte
of its own, and the bytes together may again be a text.
-/

namespace DocAtlas

open DocAtlas.Text

/-- The name of a file or directory: a text, or bytes that are no text. -/
inductive Name where
  | text (s : String)
  | raw (bytes : List UInt8)
deriving DecidableEq

/-- The bytes that a letter stands for in a name, nothing if it cannot be part of one. -/
def Text.Letter.bytes? : Letter → Option (List UInt8)
  | .char c => some (String.utf8EncodeChar c)
  | .half unit =>
    if 0xdc80 ≤ unit ∧ unit ≤ 0xdcff then some [UInt8.ofNat (unit - 0xdc00)] else none

namespace Name

/-- The name that leads to the directory above. -/
def up : Name := text ".."

/-- The text of a name, nothing if it is none. -/
def text? : Name → Option String
  | text s => some s
  | raw _ => none

/-- The number of bytes of a name. -/
def byteCount : Name → Nat
  | text s => s.utf8ByteSize
  | raw bytes => bytes.length

/-- Does a name hold a null character? Nothing has such a name. -/
def hasNull : Name → Bool
  | text s => s.toList.contains (Char.ofNat 0)
  | raw bytes => bytes.contains 0

/-- The name of the given bytes. -/
def ofBytes (bytes : List UInt8) : Name :=
  match String.fromUTF8? ⟨bytes.toArray⟩ with
  | some s => text s
  | none => raw bytes

/-- The name that letters spell, nothing if they spell none. -/
def ofLetters? (letters : List Letter) : Option Name :=
  match chars? letters with
  | some s => some (text (String.ofList s))
  | none => (letters.mapM Letter.bytes?).map fun bytes => ofBytes bytes.flatten

end Name

end DocAtlas
