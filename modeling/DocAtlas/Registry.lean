/-!
# Registries

A registry maps names to what they were declared as. The first declaration of a name wins, and the
declarations keep their order. That no name is registered twice is part of the type.
-/

namespace DocAtlas

/-- Declarations by name, in order of declaration. No name is registered twice. -/
structure Registry (α : Type) where
  entries : List (String × α)
  distinct : (entries.map Prod.fst).Nodup

namespace Registry

variable {α : Type}

/-- The registry without declarations. -/
def empty : Registry α :=
  { entries := [], distinct := List.Pairwise.nil }

/-- The registered names in order. -/
def names (registry : Registry α) : List String :=
  registry.entries.map Prod.fst

/-- What a name was declared as. -/
def get? (registry : Registry α) (name : String) : Option α :=
  registry.entries.lookup name

/-- What the names were declared as, in order. -/
def values (registry : Registry α) : List α :=
  registry.entries.map Prod.snd

/-- The number of registered names. -/
def size (registry : Registry α) : Nat :=
  registry.entries.length

/-- Is a name still free? -/
def isFree (registry : Registry α) (name : String) : Bool :=
  name ∉ registry.names

/-- Declare a name, without effect if it is taken. -/
def register (registry : Registry α) (name : String) (value : α) : Registry α :=
  if h : name ∈ registry.names then registry
  else
    { entries := registry.entries ++ [(name, value)]
      distinct := by
        rw [List.map_append, List.nodup_append]
        refine ⟨registry.distinct, by simp, fun a ha b hb => ?_⟩
        rw [List.map_singleton, List.mem_singleton] at hb
        rintro rfl
        rw [hb] at ha
        exact h ha }

/-- Declare several names in order. -/
def registerAll (registry : Registry α) (declarations : List (String × α)) : Registry α :=
  declarations.foldl (fun registry (name, value) => registry.register name value) registry

end Registry

end DocAtlas
