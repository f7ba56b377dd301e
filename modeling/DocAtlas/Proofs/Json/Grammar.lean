import DocAtlas.Json.Reader
import Mathlib.Data.Int.Notation
import Mathlib.Data.Nat.Notation

/-!
# The grammar of JSON

A text is what the grammar says, apart from any reader: literals, blanks between the tokens, and
digits of any number. The grammar gives the value that a text stands for. It says of an object which
members are written, with all repetitions, and it marks the texts in which some integer has more
digits than are accepted.
-/

namespace DocAtlas.Json

open DocAtlas.Text

/-! ## Tokens -/

/-- Blanks that may stand between the tokens. -/
def Blanks (s : List Char) : Prop :=
  ∀ c ∈ s, c ∈ [' ', '\t', '\n', '\r']

/-- A hexadecimal digit with its value. -/
def IsHexDigit (c : Char) (value : ℕ) : Prop :=
  "0123456789abcdef".toList[value]? = some c ∨ "0123456789ABCDEF".toList[value]? = some c

/-- Four hexadecimal digits and the unit that they name. -/
inductive NamesUnit : List Char → ℕ → Prop
  | digits {a b c d : Char} {p q r s : ℕ} (ha : IsHexDigit a p) (hb : IsHexDigit b q)
      (hc : IsHexDigit c r) (hd : IsHexDigit d s) :
      NamesUnit [a, b, c, d] (((p * 16 + q) * 16 + r) * 16 + s)

/-- What the letters behind a backslash stand for. -/
def shortEscapes : List (Char × Char) :=
  [('\x22', '\x22'), ('\\', '\\'), ('/', '/'), ('b', Char.ofNat 8), ('f', Char.ofNat 12), ('n', '\n'),
    ('r', '\r'), ('t', '\t')]

/-- The text between the quotes of a string, with the letters that it stands for. The first half of
a surrogate pair makes up one letter with the second one, if that follows. Any other half stands
alone. -/
inductive SpellsLetters : List Char → List Letter → Prop
  | nil : SpellsLetters [] []
  | plain {c : Char} {s : List Char} {letters : List Letter} (hquote : c ≠ '\x22')
      (hbackslash : c ≠ '\\') (hcontrol : 32 ≤ c.toNat) (h : SpellsLetters s letters) :
      SpellsLetters (c :: s) (.char c :: letters)
  | short {c meaning : Char} {s : List Char} {letters : List Letter}
      (hescape : (c, meaning) ∈ shortEscapes) (h : SpellsLetters s letters) :
      SpellsLetters ('\\' :: c :: s) (.char meaning :: letters)
  | unit {digits s : List Char} {n : ℕ} {letters : List Letter} (hunit : NamesUnit digits n)
      (hchar : n < 0xd800 ∨ 0xdfff < n) (h : SpellsLetters s letters) :
      SpellsLetters ('\\' :: 'u' :: (digits ++ s)) (.char (Char.ofNat n) :: letters)
  | half {digits s : List Char} {n : ℕ} {letters : List Letter} (hunit : NamesUnit digits n)
      (hlow : 0xd800 ≤ n) (hhigh : n ≤ 0xdfff)
      (halone : n < 0xdc00 → ∀ low ≥ 0xdc00, letters.head? ≠ some (.half low))
      (h : SpellsLetters s letters) :
      SpellsLetters ('\\' :: 'u' :: (digits ++ s)) (.half n :: letters)
  | pair {digits digits' s : List Char} {high low : ℕ} {letters : List Letter}
      (hfirst : NamesUnit digits high) (hsecond : NamesUnit digits' low) (hhigh : 0xd800 ≤ high)
      (hbelow : high < 0xdc00) (hlow : 0xdc00 ≤ low) (habove : low ≤ 0xdfff)
      (h : SpellsLetters s letters) :
      SpellsLetters ('\\' :: 'u' :: (digits ++ '\\' :: 'u' :: (digits' ++ s)))
        (.char (Char.ofNat (0x10000 + (high - 0xd800) * 1024 + (low - 0xdc00))) :: letters)

/-- Decimal digits, one at least. -/
def IsDigits (s : List Char) : Prop :=
  s ≠ [] ∧ ∀ c ∈ s, c ∈ "0123456789".toList

/-- The digits before the point. Only zero itself begins with a zero. -/
def IsWhole (s : List Char) : Prop :=
  IsDigits s ∧ (s.head? = some '0' → s = ['0'])

/-- The point and the digits behind it, or nothing. -/
inductive IsFraction : List Char → List Char → Prop
  | none : IsFraction [] []
  | digits {digits : List Char} (hdigits : IsDigits digits) : IsFraction ('.' :: digits) digits

/-- The signs of an exponent. -/
def exponentSigns : List (List Char × ℤ) :=
  [([], 1), (['+'], 1), (['-'], -1)]

/-- An exponent and its value, or nothing. -/
inductive IsExponent : List Char → ℤ → Prop
  | none : IsExponent [] 0
  | digits {mark : Char} {sign digits : List Char} {factor : ℤ} (hmark : mark ∈ ['e', 'E'])
      (hsign : (sign, factor) ∈ exponentSigns) (hdigits : IsDigits digits) :
      IsExponent (mark :: (sign ++ digits)) (factor * ofDigits digits)

/-- The sign of a number. -/
def signOf (negative : Bool) : List Char :=
  if negative then ['-'] else []

/-- The words and what they stand for. -/
def words : List (List Char × Json) :=
  [("null".toList, .null), ("true".toList, .bool true), ("false".toList, .bool false),
    ("NaN".toList, .nan), ("Infinity".toList, .infinite false), ("-Infinity".toList, .infinite true)]

/-! ## Values -/

/-- What a piece of a text is: a value, an item of an array with the blanks around it, items with
commas between them, a member of an object with the blanks around it, or such members. -/
inductive Part where
  | value (value : Json)
  | item (value : Json)
  | items (values : List Json)
  | member (name : String) (value : Json)
  | members (pairs : List (String × Json))

/-- A text spells a part. The flag says whether some integer has more digits than are accepted. -/
inductive Spells : Part → List Char → Bool → Prop
  | word {word : List Char} {value : Json} (hword : (word, value) ∈ words) :
      Spells (.value value) word false
  | string {s : List Char} {letters : List Letter} (h : SpellsLetters s letters) :
      Spells (.value (ofLoose ⟨letters⟩)) ('\x22' :: (s ++ ['\x22'])) false
  | integer {whole : List Char} (negative : Bool) (hwhole : IsWhole whole) :
      Spells (.value (.int (if negative then -(ofDigits whole : ℤ) else ofDigits whole)))
        (signOf negative ++ whole) (decide (maxDigits < whole.length))
  | real {whole fraction digits exponent : List Char} {power : ℤ} (negative : Bool)
      (hwhole : IsWhole whole) (hfraction : IsFraction fraction digits)
      (hexponent : IsExponent exponent power) (hreal : fraction ≠ [] ∨ exponent ≠ []) :
      Spells (.value (.real negative (ofDigits (whole ++ digits)) (power - digits.length)))
        (signOf negative ++ (whole ++ (fraction ++ exponent))) false
  | emptyArray {s : List Char} (h : Blanks s) :
      Spells (.value (.arr [])) ('[' :: (s ++ [']'])) false
  | array {s : List Char} {values : List Json} {long : Bool} (h : Spells (.items values) s long) :
      Spells (.value (.arr values)) ('[' :: (s ++ [']'])) long
  | emptyObject {s : List Char} (h : Blanks s) :
      Spells (.value (.obj [])) ('\x7b' :: (s ++ ['\x7d'])) false
  | object {s : List Char} {pairs : List (String × Json)} {long : Bool}
      (h : Spells (.members pairs) s long) :
      Spells (.value (.obj (Keyed.ofPairs pairs))) ('\x7b' :: (s ++ ['\x7d'])) long
  | item {before s after : List Char} {value : Json} {long : Bool} (hbefore : Blanks before)
      (h : Spells (.value value) s long) (hafter : Blanks after) :
      Spells (.item value) (before ++ (s ++ after)) long
  | lastItem {s : List Char} {value : Json} {long : Bool} (h : Spells (.item value) s long) :
      Spells (.items [value]) s long
  | moreItems {s t : List Char} {value : Json} {values : List Json} {long later : Bool}
      (h : Spells (.item value) s long) (hrest : Spells (.items values) t later) :
      Spells (.items (value :: values)) (s ++ ',' :: t) (long || later)
  | member {before key behind s : List Char} {letters : List Letter} {value : Json} {long : Bool}
      (hbefore : Blanks before) (hkey : SpellsLetters key letters) (hbehind : Blanks behind)
      (h : Spells (.item value) s long) :
      Spells (.member (LooseString.mk letters).mended value)
        (before ++ '\x22' :: (key ++ '\x22' :: (behind ++ ':' :: s))) long
  | lastMember {s : List Char} {name : String} {value : Json} {long : Bool}
      (h : Spells (.member name value) s long) : Spells (.members [(name, value)]) s long
  | moreMembers {s t : List Char} {name : String} {value : Json} {pairs : List (String × Json)}
      {long later : Bool} (h : Spells (.member name value) s long)
      (hrest : Spells (.members pairs) t later) :
      Spells (.members ((name, value) :: pairs)) (s ++ ',' :: t) (long || later)

/-- What stands between the braces of an object. -/
inductive SpellsInside : List Char → List (String × Json) → Bool → Prop
  | empty {s : List Char} (h : Blanks s) : SpellsInside s [] false
  | members {s : List Char} {pairs : List (String × Json)} {long : Bool}
      (h : Spells (.members pairs) s long) : SpellsInside s pairs long

/-- A text is one object and nothing else but blanks. -/
def HoldsObject (text : String) (pairs : List (String × Json)) (long : Bool) : Prop :=
  ∃ before s after, Blanks before ∧ SpellsInside s pairs long ∧ Blanks after ∧
    text.toList = before ++ '\x7b' :: (s ++ '\x7d' :: after)

end DocAtlas.Json
