import DocAtlas.Json.Writer

/-!
# Identities

Comments and elements get identities of 128 bits, written in the usual five groups of hexadecimal
digits with the marks of a random identity.
-/

namespace DocAtlas

/-- A supply of identities by position, for comments and for elements. -/
structure Supply where
  comment : Nat → String
  element : Nat → String

namespace Identity

/-- The given number of hexadecimal digits of a number, the most significant first. -/
def hexDigits : Nat → Nat → List Char
  | 0, _ => []
  | count + 1, n => hexDigits count (n / 16) ++ [Json.hexDigit (n % 16)]

/-- The identity that a number stands for. The digits that mark a random identity are fixed. -/
def ofNat (n : Nat) : String :=
  String.ofList
    (hexDigits 8 (n >>> 96) ++ '-' :: hexDigits 4 (n >>> 80) ++
      '-' :: '4' :: hexDigits 3 (n >>> 64) ++
      '-' :: Json.hexDigit (8 + (n >>> 60) % 4) :: hexDigits 3 (n >>> 48) ++
      '-' :: hexDigits 12 n)

/-- The distance between the numbers of two identities in a row. -/
def stride : Nat := 0x9e3779b97f4a7c15f39cc0605cedc835

/-- The supply that begins at a number: comments take the even places, elements the odd ones. -/
def supply (seed : Nat) : Supply :=
  { comment := fun index => ofNat (seed + 2 * index * stride)
    element := fun index => ofNat (seed + (2 * index + 1) * stride) }

end Identity

end DocAtlas
