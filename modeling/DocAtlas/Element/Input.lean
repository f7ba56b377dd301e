import DocAtlas.Element.Forest

/-!
# Input of the forest

A forest is made from an atlas. Callers that hold something else are told what is wrong with it.
-/

namespace DocAtlas.Element

/-- Something given where an atlas is expected. For an atlas whose entries are no list, the name of
their kind is known. -/
inductive Input where
  | atlas (atlas : Atlas)
  | entriesOther (kindName : String)
  | absent

/-- Why no forest is made: the entries are no list, or there is no atlas. -/
inductive InputError where
  | notList (kindName : String)
  | absent
deriving DecidableEq

/-- The text of an input error. -/
def InputError.message : InputError → String
  | notList kindName => "Expected a list of processed comments, got " ++ kindName
  | absent => "Expected a link result, got None"

/-- The atlas that is given. -/
def Input.toAtlas : Input → Except InputError Atlas
  | atlas found => .ok found
  | entriesOther kindName => .error (.notList kindName)
  | absent => .error .absent

/-- The forest of what is given. -/
def Input.forest (input : Input) : Except InputError (List Node) :=
  input.toAtlas.map Atlas.forest

end DocAtlas.Element
