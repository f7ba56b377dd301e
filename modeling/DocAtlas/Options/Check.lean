import DocAtlas.Json.Value
import DocAtlas.Number.Decimal

/-!
# Checking option values

Every option has a check that takes a JSON value and gives the value of the option or a list of
problems. Checks of several options are combined so that the problems of all of them are listed.
-/

namespace DocAtlas.Options

open DocAtlas.Text

/-- A step towards a place inside the options: to the option or field of a name, or to the item at a
position. -/
inductive Step where
  | key (name : String)
  | index (position : Nat)
deriving DecidableEq

/-- What is wrong with a value: its type, half of a surrogate pair that stands alone in a string,
the length of a string or list, a word that is not among those allowed, or a value that could stand
for a truth value but does not. -/
inductive Fault where
  | stringType
  | stringUnicode
  | stringTooShort
  | stringTooLong
  | listType
  | tooShort
  | literal
  | recordType
  | boolType
  | boolParsing
deriving DecidableEq

/-- How reports name a fault. -/
def Fault.name : Fault → String
  | stringType => "string_type"
  | stringUnicode => "string_unicode"
  | stringTooShort => "string_too_short"
  | stringTooLong => "string_too_long"
  | listType => "list_type"
  | tooShort => "too_short"
  | literal => "literal_error"
  | recordType => "model_type"
  | boolType => "bool_type"
  | boolParsing => "bool_parsing"

/-- A fault and its place. -/
structure Problem where
  location : List Step
  fault : Fault
deriving DecidableEq

/-- A checked value, or what is wrong with it. -/
inductive Checked (α : Type) where
  | pass (value : α)
  | fail (problems : List Problem)
deriving DecidableEq

namespace Checked

variable {α β : Type}

/-- What is wrong. -/
def problems : Checked α → List Problem
  | pass _ => []
  | fail problems => problems

/-- Apply a function to a checked value. -/
def map (f : α → β) : Checked α → Checked β
  | pass a => pass (f a)
  | fail problems => fail problems

/-- Apply a checked function to a checked value, keeping the problems of both. -/
def apply : Checked (α → β) → Checked α → Checked β
  | pass f, pass a => pass (f a)
  | f, a => fail (f.problems ++ a.problems)

/-- Move the places of all problems below a step. -/
def under (step : Step) : Checked α → Checked α
  | pass a => pass a
  | fail problems => fail (problems.map fun p => { p with location := step :: p.location })

end Checked

/-- A value with one fault of its own. -/
def refuse {α : Type} (fault : Fault) : Checked α :=
  .fail [{ location := [], fault }]

/-- A check of a JSON value. -/
abbrev Check (α : Type) := Json → Checked α

/-- A string, in which halves of surrogate pairs may stand alone. -/
def checkString : Check LooseString
  | .str s => .pass s
  | .loose s => .pass s
  | _ => refuse .stringType

/-- A string whose number of characters lies between two bounds. -/
def checkBounded (least most : Nat) : Check String
  | .str s =>
    if s.length < least then refuse .stringTooShort
    else if most < s.length then refuse .stringTooLong
    else .pass s
  | .loose _ => refuse .stringUnicode
  | _ => refuse .stringType

/-- One of the given words, which stand for values. -/
def checkWord {α : Type} (words : List (String × α)) : Check α
  | .str s =>
    match words.lookup s with
    | some value => .pass value
    | none => refuse .literal
  | .loose _ => refuse .stringUnicode
  | _ => refuse .literal

/-- The items of a list, each checked in its place. -/
def checkItems {α : Type} (check : Check α) (position : Nat) : List Json → Checked (List α)
  | [] => .pass []
  | item :: rest =>
    (((check item).under (.index position)).map List.cons).apply
      (checkItems check (position + 1) rest)

/-- A list. -/
def checkList {α : Type} (check : Check α) : Check (List α)
  | .arr items => checkItems check 0 items
  | _ => refuse .listType

/-- A list with at least one item. -/
def checkNonempty {α : Type} (check : Check α) : Check (List α)
  | .arr [] => refuse .tooShort
  | value => checkList check value

/-- The words that stand for truth values, in lower case. -/
def boolWords : List (String × Bool) :=
  [("0", false), ("off", false), ("f", false), ("false", false), ("n", false), ("no", false),
   ("1", true), ("on", true), ("t", true), ("true", true), ("y", true), ("yes", true)]

/-- The first natural number that a signed word of 64 bits cannot hold. -/
def wordLimit : Nat := 0x8000000000000000

/-- An integer that may stand for a truth value: zero or one. Of the others only words are seen as
integers at all. -/
def boolOfInt (n : Int) : Checked Bool :=
  if n = 0 then .pass false
  else if n = 1 then .pass true
  else if -(wordLimit : Int) ≤ n ∧ n < wordLimit then refuse .boolParsing
  else refuse .boolType

/-- A binary fraction that may stand for a truth value. Only fractions that are integers between
the limits of a word, without the limits, are seen as integers. -/
def boolOfBinary (negative : Bool) (b : Number.Binary) : Checked Bool :=
  if b.isNat 0 then .pass false
  else if b.isNat 1 && !negative then .pass true
  else if b.isInteger && b.isBelow wordLimit then refuse .boolParsing
  else refuse .boolType

/-- A decimal that may stand for a truth value, after rounding to a binary fraction. -/
def boolOfDecimal (negative : Bool) (d : Number.Decimal) : Checked Bool :=
  match d.toBinary? with
  | some b => boolOfBinary negative b
  | none => refuse .boolType

/-- A truth value, or something that may stand for one. -/
def checkBool : Check Bool
  | .bool b => .pass b
  | .int n => boolOfInt n
  | .real negative digits exponent => boolOfDecimal negative ⟨digits, exponent⟩
  | .str s =>
    match boolWords.lookup (String.ofList (s.toList.map Char.toLower)) with
    | some b => .pass b
    | none => refuse .boolParsing
  | .loose _ => refuse .stringUnicode
  | _ => refuse .boolType

/-- Given members of a record by name. -/
abbrev Members := List (String × Json)

/-- A member of a record: its checked value, or a default if it is not given. -/
def member {α : Type} (members : Members) (name : String) (default : α) (check : Check α) :
    Checked α :=
  match members.lookup name with
  | none => .pass default
  | some value => (check value).under (.key name)

end DocAtlas.Options
