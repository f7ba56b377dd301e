import DocAtlas.Text.Loose

/-!
# JSON values

Values of the data format that configuration files and generated documents use. The members of an
object keep their order.
-/

namespace DocAtlas

open DocAtlas.Text

/-- A JSON value. A number with a fraction or an exponent is kept as a decimal: the number
`digits * 10 ^ exponent` with its sign. A string is loose if half of a surrogate pair stands alone
in it. -/
inductive Json where
  | null
  | bool (value : Bool)
  | int (value : Int)
  | real (negative : Bool) (digits : Nat) (exponent : Int)
  | infinite (negative : Bool)
  | nan
  | str (value : String)
  | loose (value : LooseString)
  | arr (items : List Json)
  | obj (members : List (String × Json))

namespace Json

/-- How error messages name the kind of a value. -/
def kindName : Json → String
  | null => "NoneType"
  | bool _ => "bool"
  | int _ => "int"
  | real .. | infinite _ | nan => "float"
  | str _ | loose _ => "str"
  | arr _ => "list"
  | obj _ => "dict"

/-- An optional string. -/
def ofOption : Option String → Json
  | none => null
  | some s => str s

/-- A list of strings. -/
def ofStrings (strings : List String) : Json :=
  arr (strings.map str)

/-- A string in which halves of surrogate pairs may stand alone. -/
def ofLoose (value : LooseString) : Json :=
  match value.toString? with
  | some s => str s
  | none => loose value

/-- A list of such strings. -/
def ofLooseStrings (values : List LooseString) : Json :=
  arr (values.map ofLoose)

/-- A string is its own value. -/
theorem ofLoose_ofString (s : String) : ofLoose (.ofString s) = str s := by
  simp [ofLoose, LooseString.toString?_ofString]

end Json

end DocAtlas
