import DocAtlas.Json.Value
import DocAtlas.Keyed

/-!
# Data to be written

What may be handed over for writing: JSON values, moments, members of enumerations, and sets, which
have no written form.
-/

namespace DocAtlas

/-- Something to be written as JSON. A `real` is the number `digits * 10 ^ exponent` with its sign,
rounded to a binary fraction, a moment is a text in ISO form, and a member is one of an enumeration
with its value. -/
inductive Datum where
  | null
  | bool (value : Bool)
  | int (value : Int)
  | real (negative : Bool) (digits : Nat) (exponent : Int)
  | infinite (negative : Bool)
  | nan
  | str (value : String)
  | moment (text : String)
  | member (value : Datum)
  | list (items : List Datum)
  | record (fields : List (String × Datum))
  | set (items : List Datum)

namespace Datum

/-- A record of fields that come one after the other; a repeated name counts once. -/
def ofFields (fields : List (String × Datum)) : Datum :=
  record (Keyed.ofPairs fields)

/-- A datum that has no written form, with the name of its kind. -/
structure Unwritable where
  kindName : String
deriving DecidableEq

/-- The text of the error. -/
def Unwritable.message (cause : Unwritable) : String :=
  "Object of type " ++ cause.kindName ++ " is not JSON serializable"

mutual

/-- The JSON value of a datum. -/
def toJson : Datum → Except Unwritable Json
  | null => .ok .null
  | bool b => .ok (.bool b)
  | int n => .ok (.int n)
  | real negative digits exponent => .ok (.real negative digits exponent)
  | infinite negative => .ok (.infinite negative)
  | nan => .ok .nan
  | str s => .ok (.str s)
  | moment text => .ok (.str text)
  | member value => value.toJson
  | list items => (itemsToJson items).map .arr
  | record fields => (fieldsToJson fields).map .obj
  | set _ => .error { kindName := "set" }

/-- The JSON values of the items of a list. -/
def itemsToJson : List Datum → Except Unwritable (List Json)
  | [] => .ok []
  | item :: rest => do
    let item ← item.toJson
    let rest ← itemsToJson rest
    .ok (item :: rest)

/-- The JSON values of the fields of a record. -/
def fieldsToJson : List (String × Datum) → Except Unwritable (List (String × Json))
  | [] => .ok []
  | (name, value) :: rest => do
    let value ← value.toJson
    let rest ← fieldsToJson rest
    .ok ((name, value) :: rest)

end

end Datum

end DocAtlas
