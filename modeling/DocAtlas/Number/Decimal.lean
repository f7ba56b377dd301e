import DocAtlas.Number.Binary

/-!
# Decimals

A binary fraction is written by the decimal of the fewest digits that is rounded to it again; of
two such decimals the nearer one, and at a tie the even one. Numbers that are neither very large
nor very small are written out, the others with an exponent of at least two digits.
-/

namespace DocAtlas.Number

/-- The number `digits * 10 ^ exponent`. -/
structure Decimal where
  digits : Nat
  exponent : Int
deriving DecidableEq

/-- The number of decimal digits. -/
def digitCount (n : Nat) : Nat :=
  n.repr.length

/-- A quotient times a power of ten, as a quotient. -/
def shift (numerator denominator : Nat) (exponent : Int) : Nat × Nat :=
  if 0 ≤ exponent then (numerator * Nat.pow 10 exponent.toNat, denominator)
  else (numerator, denominator * Nat.pow 10 (-exponent).toNat)

namespace Decimal

/-- The nearest binary fraction. -/
def toBinary (d : Decimal) : Binary :=
  let (numerator, denominator) := shift d.digits 1 d.exponent
  .ofQuotient numerator denominator

/-- The power of two that no binary fraction reaches. -/
def binaryLimit : Nat := Nat.pow 2 1024

/-- The nearest binary fraction, nothing if the number is beyond all of them. Decimals far outside
the range of binary fractions are not computed. -/
def toBinary? (d : Decimal) : Option Binary :=
  let magnitude := (digitCount d.digits : Int) + d.exponent
  if d.digits = 0 ∨ magnitude < -400 then some ⟨0, 0⟩
  else if 400 < magnitude then none
  else
    let b := d.toBinary
    if b.isBelow binaryLimit then some b else none

/-- The number of zeros at the end, of at most the given number of digits. -/
def trailingZeros : Nat → Nat → Nat
  | 0, _ => 0
  | bound + 1, n => if n % 10 = 0 then trailingZeros bound (n / 10) + 1 else 0

/-- The same number without zeros at the end of its digits. -/
def trim (d : Decimal) : Decimal :=
  let zeros := trailingZeros (digitCount d.digits - 1) d.digits
  ⟨d.digits / Nat.pow 10 zeros, d.exponent + zeros⟩

/-- A row of zeros. -/
def zeros (n : Nat) : String :=
  String.ofList (List.replicate n '0')

/-- The exponent with its sign and at least two digits. -/
def exponentText (n : Int) : String :=
  let digits := n.natAbs.repr
  (if n < 0 then "e-" else "e+") ++ zeros (2 - digits.length) ++ digits

/-- The text of a decimal. The point is written in its place if the first digit stands at most four
places behind it or sixteen places before it. -/
def toText (d : Decimal) : String :=
  let digits := d.digits.repr
  let point : Int := digits.length + d.exponent
  if -4 < point ∧ point ≤ 16 then
    if point ≤ 0 then "0." ++ zeros (-point).toNat ++ digits
    else if 0 ≤ d.exponent then digits ++ zeros d.exponent.toNat ++ ".0"
    else
      String.ofList (digits.toList.take point.toNat) ++ "." ++
        String.ofList (digits.toList.drop point.toNat)
  else
    String.ofList (digits.toList.take 1) ++
      (if digits.length ≤ 1 then "" else "." ++ String.ofList (digits.toList.drop 1)) ++
      exponentText (point - 1)

end Decimal

namespace Binary

/-- Are two numbers the same? -/
def sameValue (a b : Binary) : Bool :=
  a.toQuotient.1 * b.toQuotient.2 = b.toQuotient.1 * a.toQuotient.2

/-- The number of digits before the point; zeros behind the point count below zero. -/
def magnitude (b : Binary) : Int :=
  let (numerator, denominator) := b.toQuotient
  if denominator ≤ numerator then digitCount (numerator / denominator)
  else 1 - (digitCount ((denominator - 1) / numerator) : Int)

/-- The nearest decimal of the given exponent, at a tie the even one. -/
def nearestDecimal (b : Binary) (exponent : Int) : Decimal :=
  let (numerator, denominator) := shift b.toQuotient.1 b.toQuotient.2 (-exponent)
  ⟨roundEven numerator denominator, exponent⟩

/-- The decimal of the given exponent that is rounded to the number, nothing if there is none. Only
the two neighbours of the number are tried. -/
def decimalAt? (b : Binary) (exponent : Int) : Option Decimal :=
  let (numerator, denominator) := shift b.toQuotient.1 b.toQuotient.2 (-exponent)
  let below : Decimal := ⟨numerator / denominator, exponent⟩
  let above : Decimal := ⟨numerator / denominator + 1, exponent⟩
  match below.toBinary.sameValue b, above.toBinary.sameValue b with
  | true, true => some (b.nearestDecimal exponent)
  | true, false => some below
  | false, true => some above
  | false, false => none

/-- The most digits that are needed. -/
def maxDecimalDigits : Nat := 17

/-- The decimal of the fewest digits that is rounded to the number. -/
def shortest (b : Binary) : Decimal :=
  if b.mantissa = 0 then ⟨0, 0⟩
  else
    let grids := (List.range maxDecimalDigits).map fun n => b.magnitude - (n + 1 : Nat)
    ((grids.findSome? b.decimalAt?).getD
      (b.nearestDecimal (b.magnitude - maxDecimalDigits))).trim

/-- The text of the number. -/
def toText (b : Binary) : String :=
  b.shortest.toText

end Binary

end DocAtlas.Number
