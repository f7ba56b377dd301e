import DocAtlas.Json.Value
import DocAtlas.Number.Decimal

/-!
# Writing JSON

The layout puts every item and every member on a line of its own, indented by two spaces per
level; an empty array or object stays on one line. The text is plain ASCII: every character
outside the printable ASCII range is escaped by its UTF-16 units. A number with a fraction is
written as the nearest binary fraction.
-/

namespace DocAtlas.Json

open DocAtlas.Text

/-- A hexadecimal digit in lower case. -/
def hexDigit (n : Nat) : Char :=
  if n < 10 then Char.ofNat (n + 48) else Char.ofNat (n + 87)

/-- The escape of a UTF-16 unit: a backslash, `u` and four hexadecimal digits. -/
def escapeUnit (n : Nat) : List Char :=
  ['\\', 'u', hexDigit (n / 4096 % 16), hexDigit (n / 256 % 16), hexDigit (n / 16 % 16),
    hexDigit (n % 16)]

/-- A character inside a written string. -/
def escapeChar (c : Char) : List Char :=
  if c = '\x22' then ['\\', '\x22']
  else if c = '\\' then ['\\', '\\']
  else if c = '\n' then ['\\', 'n']
  else if c = '\r' then ['\\', 'r']
  else if c = '\t' then ['\\', 't']
  else if c.toNat = 8 then ['\\', 'b']
  else if c.toNat = 12 then ['\\', 'f']
  else if 32 ≤ c.toNat ∧ c.toNat < 127 then [c]
  else if c.toNat < 0x10000 then escapeUnit c.toNat
  else
    escapeUnit (0xd800 + (c.toNat - 0x10000) / 1024) ++
      escapeUnit (0xdc00 + (c.toNat - 0x10000) % 1024)

/-- A letter inside a written string. -/
def escapeLetter : Letter → List Char
  | .char c => escapeChar c
  | .half unit => escapeUnit unit

/-- A string in quotes, and what follows it. -/
def quoted (s : String) (rest : List Char) : List Char :=
  '\x22' :: (s.toList.flatMap escapeChar ++ '\x22' :: rest)

/-- A loose string in quotes, and what follows it. -/
def quotedLoose (s : LooseString) (rest : List Char) : List Char :=
  '\x22' :: (s.letters.flatMap escapeLetter ++ '\x22' :: rest)

/-- The end of a line and the indentation of the next one, and what follows it. -/
def newline (depth : Nat) (rest : List Char) : List Char :=
  '\n' :: (List.replicate (2 * depth) ' ' ++ rest)

/-- An integer in decimal digits. -/
def intChars (n : Int) : List Char :=
  match n with
  | .ofNat m => m.repr.toList
  | .negSucc m => '-' :: (m + 1).repr.toList

/-- A number with a fraction after its sign. Beyond all binary fractions it is infinite. -/
def realText (digits : Nat) (exponent : Int) : String :=
  match (Number.Decimal.mk digits exponent).toBinary? with
  | some b => b.toText
  | none => "Infinity"

mutual

/-- The characters of a value at a given depth of nesting, and what follows them. -/
def chars (depth : Nat) (value : Json) (rest : List Char) : List Char :=
  match value with
  | null => "null".toList ++ rest
  | bool true => "true".toList ++ rest
  | bool false => "false".toList ++ rest
  | int n => intChars n ++ rest
  | real negative digits exponent =>
    (if negative then ['-'] else []) ++ ((realText digits exponent).toList ++ rest)
  | infinite false => "Infinity".toList ++ rest
  | infinite true => "-Infinity".toList ++ rest
  | nan => "NaN".toList ++ rest
  | str s => quoted s rest
  | loose s => quotedLoose s rest
  | arr [] => '[' :: ']' :: rest
  | arr (item :: items) =>
    '[' :: newline (depth + 1) (chars (depth + 1) item (itemsTail depth items rest))
  | obj [] => '\x7b' :: '\x7d' :: rest
  | obj ((key, value) :: members) =>
    '\x7b' :: newline (depth + 1) (quoted key (':' :: ' ' ::
      chars (depth + 1) value (membersTail depth members rest)))

/-- The items of an array after the first one, up to the closing bracket, and what follows it. -/
def itemsTail (depth : Nat) (items : List Json) (rest : List Char) : List Char :=
  match items with
  | [] => newline depth (']' :: rest)
  | item :: items =>
    ',' :: newline (depth + 1) (chars (depth + 1) item (itemsTail depth items rest))

/-- The members of an object after the first one, up to the closing brace, and what follows it. -/
def membersTail (depth : Nat) (members : List (String × Json)) (rest : List Char) : List Char :=
  match members with
  | [] => newline depth ('\x7d' :: rest)
  | (key, value) :: members =>
    ',' :: newline (depth + 1) (quoted key (':' :: ' ' ::
      chars (depth + 1) value (membersTail depth members rest)))

end

/-- The text of a value. -/
def write (value : Json) : String :=
  String.ofList (chars 0 value [])

end DocAtlas.Json
