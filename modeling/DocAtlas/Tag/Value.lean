import DocAtlas.Text.Blank
import DocAtlas.Text.Search

/-!
# Tag values

The value of a parameter tag reads `{type} [name] - description`, every part optional. A value is
cut into tokens: a group in braces, brackets or backticks runs to its first closing character, and
any other token is a run of characters other than the space. The type is a first token in braces,
the name is the next token unless that is a lone dash, and the rest is the description.
-/

namespace DocAtlas.Tag

open DocAtlas.Text

/-- The character that closes a group opened by the given one. -/
def closer? (c : Char) : Option Char :=
  if c = '\x7b' then some '\x7d'
  else if c = '[' then some ']'
  else if c = '\x60' then some '\x60'
  else none

/-- The longest run of characters other than the space, and what follows it. -/
def takeRun (s : List Char) : List Char × List Char :=
  (s.takeWhile (· != ' '), s.dropWhile (· != ' '))

/-- The rest of the token that begins with the given character, and what follows the token. -/
def takeToken (c : Char) (s : List Char) : List Char × List Char :=
  match closer? c with
  | none => takeRun s
  | some close =>
    match cut? [close] s with
    | some (inside, rest) => (inside ++ [close], rest)
    | none => takeRun s

/-- A token leaves no more than the text it was taken from. -/
theorem takeToken_length (c : Char) (s : List Char) : (takeToken c s).2.length ≤ s.length := by
  have hrun : (takeRun s).2.length ≤ s.length := (List.dropWhile_suffix _).length_le
  unfold takeToken
  split
  · exact hrun
  · split
    · next hcut =>
      have := cut?_length hcut
      simp only
      omega
    · exact hrun

/-- The tokens of a value. -/
def tokens : List Char → List (List Char)
  | [] => []
  | c :: rest =>
    if c = ' ' then tokens rest
    else (c :: (takeToken c rest).1) :: tokens (takeToken c rest).2
termination_by s => s.length
decreasing_by
  · exact Nat.lt_succ_self _
  · exact Nat.lt_succ_of_le (takeToken_length c rest)

/-- The inside of a group without surrounding blanks, or the token itself if it is not enclosed
by the given characters. -/
def ungroup (first last : Char) (token : List Char) : List Char :=
  match token with
  | [] => []
  | c :: rest =>
    if c = first ∧ token.getLast? = some last then trim rest.dropLast else token

/-- The description that a value's remaining tokens give: joined by single spaces, without one
leading dash. -/
def describe (rest : List (List Char)) : Option String :=
  match trim (joinWith [' '] rest) with
  | '-' :: s => ofChars? (trim s)
  | s => ofChars? s

/-- The type that a value begins with, and the tokens after it. -/
def takeType : List (List Char) → Option String × List (List Char)
  | [] => (none, [])
  | token :: rest =>
    if token.head? = some '\x7b' then (ofChars? (ungroup '\x7b' '\x7d' token), rest)
    else (none, token :: rest)

/-- The name that a value's tokens begin with, and the tokens after it. -/
def takeName : List (List Char) → Option String × List (List Char)
  | [] => (none, [])
  | token :: rest =>
    if token = ['-'] then (none, token :: rest)
    else (ofChars? (ungroup '[' ']' token), rest)

/-- The parts of a parameter value: what the braces hold, the name, and what is said about it. -/
structure Value where
  type : Option String
  name : Option String
  description : Option String
deriving DecidableEq

/-- Read a parameter value. -/
def Value.ofString (value : String) : Value :=
  let (type, rest) := takeType (tokens value.toList)
  let (name, rest) := takeName rest
  { type, name, description := describe rest }

/-- The parts of a value without a name, as for what is returned or thrown: what the braces hold,
and what is said about it. -/
structure Result where
  type : Option String
  description : Option String
deriving DecidableEq

/-- Read the value of a return or throw tag. -/
def Result.ofString (value : String) : Result :=
  let (type, rest) := takeType (tokens value.toList)
  { type, description := describe rest }

end DocAtlas.Tag
