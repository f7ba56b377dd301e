import DocAtlas.Json.Value
import DocAtlas.Keyed

/-!
# Reading JSON

The reader takes the JSON grammar and, beyond it, the numbers `NaN`, `Infinity` and `-Infinity`.
A repeated key keeps its first place and takes its last value. Control characters inside strings
are refused. Half of a surrogate pair may stand alone in a string; in a key it is replaced.
-/

namespace DocAtlas.Json

open DocAtlas.Text

/-- Why a text is not read: it does not follow the grammar, or an integer has more digits than are
accepted. -/
inductive ReadError where
  | malformed
  | integerTooLong
deriving DecidableEq

/-- The most digits that an integer may have. -/
def maxDigits : Nat := 4300

/-- Drop the blanks that may stand between the tokens. -/
def skipBlanks (s : List Char) : List Char :=
  s.dropWhile fun c => c = ' ' || c = '\t' || c = '\n' || c = '\r'

/-- The value of a hexadecimal digit. -/
def hexValue? (c : Char) : Option Nat :=
  if '0' ≤ c ∧ c ≤ '9' then some (c.toNat - 48)
  else if 'a' ≤ c ∧ c ≤ 'f' then some (c.toNat - 87)
  else if 'A' ≤ c ∧ c ≤ 'F' then some (c.toNat - 55)
  else none

/-- The UTF-16 unit that four hexadecimal digits name. -/
def unit? (a b c d : Char) : Option Nat := do
  let a ← hexValue? a
  let b ← hexValue? b
  let c ← hexValue? c
  let d ← hexValue? d
  some (((a * 16 + b) * 16 + c) * 16 + d)

/-- Is the unit the first half of a surrogate pair? -/
def isHighUnit (n : Nat) : Bool :=
  0xd800 ≤ n && n ≤ 0xdbff

/-- Is the unit the second half of a surrogate pair? -/
def isLowUnit (n : Nat) : Bool :=
  0xdc00 ≤ n && n ≤ 0xdfff

/-- The letter of a unit that belongs to no pair. -/
def ofUnit (n : Nat) : Letter :=
  if isHighUnit n || isLowUnit n then .half n else .char (Char.ofNat n)

/-- The letter of a surrogate pair. -/
def ofPair (high low : Nat) : Letter :=
  .char (Char.ofNat (0x10000 + (high - 0xd800) * 1024 + (low - 0xdc00)))

/-- The character that a one-letter escape stands for. -/
def escaped? (c : Char) : Option Char :=
  if c = '\x22' || c = '\\' || c = '/' then some c
  else if c = 'b' then some (Char.ofNat 8)
  else if c = 'f' then some (Char.ofNat 12)
  else if c = 'n' then some '\n'
  else if c = 'r' then some '\r'
  else if c = 't' then some '\t'
  else none

/-- Put a letter in front of the string that was read. -/
def prepend (letter : Letter) (r : Except ReadError (List Letter × List Char)) :
    Except ReadError (List Letter × List Char) :=
  r.map fun (s, rest) => (letter :: s, rest)

/-- The letters of a string up to its closing quote. -/
def readString : List Char → Except ReadError (List Letter × List Char)
  | [] => .error .malformed
  | '\x22' :: rest => .ok ([], rest)
  | '\\' :: 'u' :: a :: b :: c :: d :: '\\' :: 'u' :: e :: f :: g :: h :: rest =>
    match unit? a b c d, unit? e f g h with
    | some high, some low =>
      if isHighUnit high && isLowUnit low then prepend (ofPair high low) (readString rest)
      else prepend (ofUnit high) (readString ('\\' :: 'u' :: e :: f :: g :: h :: rest))
    | some n, none => prepend (ofUnit n) (readString ('\\' :: 'u' :: e :: f :: g :: h :: rest))
    | none, _ => .error .malformed
  | '\\' :: 'u' :: a :: b :: c :: d :: rest =>
    match unit? a b c d with
    | some n => prepend (ofUnit n) (readString rest)
    | none => .error .malformed
  | '\\' :: c :: rest =>
    match escaped? c with
    | some found => prepend (.char found) (readString rest)
    | none => .error .malformed
  | c :: rest => if c.toNat < 32 then .error .malformed else prepend (.char c) (readString rest)

/-- Is the character a decimal digit? -/
def isDigit (c : Char) : Bool :=
  '0' ≤ c && c ≤ '9'

/-- The number that decimal digits name. -/
def ofDigits (digits : List Char) : Nat :=
  digits.foldl (fun n c => n * 10 + (c.toNat - 48)) 0

/-- The digits before the point: a zero, or digits that do not begin with one. -/
def readWhole : List Char → Except ReadError (List Char × List Char)
  | '0' :: rest => .ok (['0'], rest)
  | s =>
    match s.takeWhile isDigit with
    | [] => .error .malformed
    | digits => .ok (digits, s.dropWhile isDigit)

/-- The digits after the point, none if there is no point followed by a digit. -/
def readFraction (s : List Char) : List Char × List Char :=
  match s with
  | '.' :: rest =>
    match rest.takeWhile isDigit with
    | [] => ([], s)
    | digits => (digits, rest.dropWhile isDigit)
  | _ => ([], s)

/-- The digits of an exponent, with the sign given to them. -/
def readExponentDigits (sign : Int) (s : List Char) : Option (Int × List Char) :=
  match s.takeWhile isDigit with
  | [] => none
  | digits => some (sign * ofDigits digits, s.dropWhile isDigit)

/-- The exponent, nothing if there is no mark followed by digits. -/
def readExponent (s : List Char) : Option (Int × List Char) :=
  match s with
  | c :: '-' :: rest => if c = 'e' || c = 'E' then readExponentDigits (-1) rest else none
  | c :: '+' :: rest => if c = 'e' || c = 'E' then readExponentDigits 1 rest else none
  | c :: rest => if c = 'e' || c = 'E' then readExponentDigits 1 rest else none
  | [] => none

/-- An integer of the given sign and digits. -/
def integer (negative : Bool) (digits : List Char) : Except ReadError Json :=
  if maxDigits < digits.length then .error .integerTooLong
  else .ok (.int (if negative then -(ofDigits digits : Int) else ofDigits digits))

/-- A number after its sign. -/
def readNumber (negative : Bool) (s : List Char) : Except ReadError (Json × List Char) := do
  let (whole, rest) ← readWhole s
  let (fraction, rest) := readFraction rest
  match readExponent rest with
  | some (exponent, rest) =>
    .ok (.real negative (ofDigits (whole ++ fraction)) (exponent - fraction.length), rest)
  | none =>
    if fraction.isEmpty then do
      let n ← integer negative whole
      .ok (n, rest)
    else .ok (.real negative (ofDigits (whole ++ fraction)) (-fraction.length), rest)

/-- Take a fixed word and give the value it stands for. -/
def readWord (word : List Char) (value : Json) (s : List Char) :
    Except ReadError (Json × List Char) :=
  if word.isPrefixOf s then .ok (value, s.drop word.length) else .error .malformed

mutual

/-- A value, at most as deeply nested as the bound says. -/
def readValue : Nat → List Char → Except ReadError (Json × List Char)
  | 0, _ => .error .malformed
  | _, [] => .error .malformed
  | bound + 1, c :: rest =>
    if c = '\x22' then do
      let (s, rest) ← readString rest
      .ok (ofLoose ⟨s⟩, rest)
    else if c = '[' then
      match skipBlanks rest with
      | ']' :: rest => .ok (.arr [], rest)
      | rest => do
        let (items, rest) ← readItems bound rest
        .ok (.arr items, rest)
    else if c = '\x7b' then
      match skipBlanks rest with
      | '\x7d' :: rest => .ok (.obj [], rest)
      | rest => do
        let (members, rest) ← readMembers bound [] rest
        .ok (.obj members, rest)
    else if c = 'n' then readWord "null".toList .null (c :: rest)
    else if c = 't' then readWord "true".toList (.bool true) (c :: rest)
    else if c = 'f' then readWord "false".toList (.bool false) (c :: rest)
    else if c = 'N' then readWord "NaN".toList .nan (c :: rest)
    else if c = 'I' then readWord "Infinity".toList (.infinite false) (c :: rest)
    else if c = '-' then
      if rest.head? = some 'I' then readWord "Infinity".toList (.infinite true) rest
      else readNumber true rest
    else readNumber false (c :: rest)

/-- The items of an array up to its closing bracket. -/
def readItems : Nat → List Char → Except ReadError (List Json × List Char)
  | 0, _ => .error .malformed
  | bound + 1, s => do
    let (item, rest) ← readValue bound s
    match skipBlanks rest with
    | ',' :: rest => do
      let (items, rest) ← readItems bound (skipBlanks rest)
      .ok (item :: items, rest)
    | ']' :: rest => .ok ([item], rest)
    | _ => .error .malformed

/-- The members of an object up to its closing brace, added to those already read. -/
def readMembers : Nat → List (String × Json) → List Char →
    Except ReadError (List (String × Json) × List Char)
  | 0, _, _ => .error .malformed
  | bound + 1, members, '\x22' :: s => do
    let (key, rest) ← readString s
    match skipBlanks rest with
    | ':' :: rest => do
      let (value, rest) ← readValue bound (skipBlanks rest)
      let members := Keyed.put (LooseString.mk key).mended value members
      match skipBlanks rest with
      | ',' :: rest => readMembers bound members (skipBlanks rest)
      | '\x7d' :: rest => .ok (members, rest)
      | _ => .error .malformed
    | _ => .error .malformed
  | _, _, _ => .error .malformed

end

/-- Read a text that holds one value and nothing else but blanks. -/
def read (text : String) : Except ReadError Json := do
  let s := text.toList
  let (value, rest) ← readValue (s.length + 1) (skipBlanks s)
  if (skipBlanks rest).isEmpty then .ok value else .error .malformed

end DocAtlas.Json
