import Assortment.Binary64.Basic

/-!
# Rounding to the nearest binary fraction

An exact quotient of natural numbers becomes the nearest 64-bit float, a tie going to the even
significand and a result beyond the range becoming an infinity.  Decimal notation, integers and
the product and quotient of two floats are all rounded by way of such a quotient, so each of them
is rounded exactly once.
-/

namespace Assortment.Binary64

/-- The nearest natural number to a quotient, a half going to the even neighbour. -/
def roundHalfEven (numerator denominator : Nat) : Nat :=
  let quotient := numerator / denominator
  let twice := 2 * (numerator % denominator)
  if denominator < twice ∨ (twice = denominator ∧ quotient % 2 = 1) then
    quotient + 1
  else
    quotient

/-- Multiply a quotient by a power of two, which may be negative, by scaling one of its sides. -/
def scaleQuotient (numerator denominator : Nat) (power : Int) : Nat × Nat :=
  (numerator * Power.two power.toNat, denominator * Power.two (-power).toNat)

/-- The largest power of two that does not exceed a positive quotient. -/
def binaryOrder (numerator denominator : Nat) : Int :=
  let guess : Int := numerator.log2 - denominator.log2
  let scaled := scaleQuotient numerator denominator (-guess)
  if scaled.2 ≤ scaled.1 then guess else guess - 1

/-- The float nearest to a signed quotient. -/
def ofRatio (negative : Bool) (numerator denominator : Nat) : Binary64 :=
  if numerator = 0 then
    finite (Finite.zero negative)
  else
    let exponent := max leastExponent (binaryOrder numerator denominator - 52)
    let scaled := scaleQuotient numerator denominator (-exponent)
    let rounded := roundHalfEven scaled.1 scaled.2
    let carried :=
      if rounded = significandBound then
        (leastFullSignificand, exponent + 1)
      else
        (rounded, exponent)
    if canonical : Canonical carried.1 carried.2 then
      finite ⟨negative, carried.1, carried.2, canonical⟩
    else
      infinite negative

/-- The float nearest to an integer. -/
def ofInt (integer : Int) : Binary64 :=
  ofRatio (integer < 0) integer.natAbs 1

/--
The float nearest to a signed whole number times a power of ten.

Powers of at least 309 overflow and those that leave the number below half of the smallest float
vanish; both are answered without computing the power.
-/
def ofDecimal (negative : Bool) (digits : Nat) (power : Int) : Binary64 :=
  if digits = 0 then
    finite (Finite.zero negative)
  else if 309 ≤ power then
    infinite negative
  else if digits.log2 + 1 + power ≤ -324 then
    finite (Finite.zero negative)
  else
    ofRatio negative (digits * Power.ten power.toNat) (Power.ten (-power).toNat)

/-- The float nearest to a signed natural number times a power of two. -/
def ofScaled (negative : Bool) (significand : Nat) (power : Int) : Binary64 :=
  let scaled := scaleQuotient significand 1 power
  ofRatio negative scaled.1 scaled.2

/-- The product, rounded once. -/
def Finite.mul (left right : Finite) : Binary64 :=
  ofScaled (left.negative != right.negative) (left.significand * right.significand)
    (left.exponent + right.exponent)

/-- The quotient by a number other than zero, rounded once. -/
def Finite.div (left right : Finite) : Binary64 :=
  let scaled :=
    scaleQuotient left.significand right.significand (left.exponent - right.exponent)
  ofRatio (left.negative != right.negative) scaled.1 scaled.2

example : ofDecimal false 1 0 = ofInt 1 := by decide +kernel

example : ofDecimal false 25 (-1) = ofRatio false 5 2 := by decide +kernel

/-- The first integer between two floats goes to the even one. -/
example : ofInt 9007199254740993 = ofInt 9007199254740992 := by decide +kernel

example : ofDecimal false 5 (-324) = ofRatio false 1 (Power.two 1074) := by decide +kernel

example : ofDecimal true 2 308 = infinite true := by decide +kernel

end Assortment.Binary64
