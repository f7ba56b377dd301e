/-!
# Binary fractions

Quotients are rounded to 53 significant binary digits, to the nearest and a tie to the even
neighbour, with 2 ^ -1074 as the least unit. The result is kept exactly, so that its decimal
places can be rounded once more without error.
-/

namespace DocAtlas.Number

/-- A quotient rounded to the nearest integer, a tie to the even one. -/
def roundEven (numerator denominator : Nat) : Nat :=
  let whole := numerator / denominator
  let twice := 2 * (numerator % denominator)
  if twice < denominator then whole
  else if denominator < twice then whole + 1
  else if whole % 2 = 0 then whole else whole + 1

/-- The number `mantissa * 2 ^ exponent`. -/
structure Binary where
  mantissa : Nat
  exponent : Int
deriving DecidableEq

namespace Binary

/-- The number as a quotient of natural numbers. -/
def toQuotient (b : Binary) : Nat × Nat :=
  if 0 ≤ b.exponent then (b.mantissa * Nat.pow 2 b.exponent.toNat, 1)
  else (b.mantissa, Nat.pow 2 (-b.exponent).toNat)

/-- Round a quotient to a multiple of a power of two. -/
def roundAt (numerator denominator : Nat) (exponent : Int) : Binary :=
  if 0 ≤ exponent then ⟨roundEven numerator (denominator * Nat.pow 2 exponent.toNat), exponent⟩
  else ⟨roundEven (numerator * Nat.pow 2 (-exponent).toNat) denominator, exponent⟩

/-- Is a quotient below 2 ^ (52 + exponent), so that one more binary digit fits? -/
def fitsBelow (numerator denominator : Nat) (exponent : Int) : Bool :=
  if 0 ≤ exponent then numerator < denominator * Nat.pow 2 exponent.toNat * Nat.pow 2 52
  else numerator * Nat.pow 2 (-exponent).toNat < denominator * Nat.pow 2 52

/-- Round a quotient to 53 significant binary digits. -/
def ofQuotient (numerator denominator : Nat) : Binary :=
  if numerator = 0 then ⟨0, 0⟩
  else
    let exponent : Int := (numerator.log2 : Int) - denominator.log2 - 52
    let exponent := if fitsBelow numerator denominator exponent then exponent - 1 else exponent
    roundAt numerator denominator (max exponent (-1074))

/-- The number times a natural number, rounded again. -/
def scale (b : Binary) (factor : Nat) : Binary :=
  let (numerator, denominator) := b.toQuotient
  ofQuotient (numerator * factor) denominator

/-- The nearest integer, a tie to the even one. -/
def round (b : Binary) : Nat :=
  let (numerator, denominator) := b.toQuotient
  roundEven numerator denominator

/-- Is the number an integer? -/
def isInteger (b : Binary) : Bool :=
  let (numerator, denominator) := b.toQuotient
  numerator % denominator = 0

/-- Is the number below the given natural number? -/
def isBelow (b : Binary) (n : Nat) : Bool :=
  let (numerator, denominator) := b.toQuotient
  numerator < n * denominator

/-- Is the number the given natural number? -/
def isNat (b : Binary) (n : Nat) : Bool :=
  let (numerator, denominator) := b.toQuotient
  numerator = n * denominator

/-- The number with a fixed number of decimal places, a tie to the even digit. -/
def toFixed (b : Binary) (places : Nat) : String :=
  let (numerator, denominator) := b.toQuotient
  let scaled := roundEven (numerator * Nat.pow 10 places) denominator
  let fraction := (scaled % Nat.pow 10 places).repr
  (scaled / Nat.pow 10 places).repr ++ "." ++
    String.ofList (List.replicate (places - fraction.length) '0') ++ fraction

/-- The number as a percentage without decimal places. -/
def toPercent (b : Binary) : String :=
  (b.scale 100).round.repr ++ "%"

end Binary

end DocAtlas.Number
