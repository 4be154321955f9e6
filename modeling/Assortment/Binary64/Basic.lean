import Assortment.Power

/-!
# Binary floating-point numbers of 64 bits

A number with a fractional part is held as the exact binary fraction that a 64-bit float denotes.
`Binary64.Finite` is a signed significand with a power of two, in the one form that the format
admits: the significand has 53 bits, or fewer at the smallest exponent.  Both zeros exist.
`Binary64` adds the two infinities, which arise only when text beyond the range is read.

Every finite number is an integer multiple of the smallest positive one, two to the power -1074.
That multiple, `Finite.units`, is what comparisons and the test for a whole number look at, so all
of them are exact.
-/

namespace Assortment

namespace Binary64

/-- The smallest binary exponent. -/
def leastExponent : Int := -1074

/-- The largest binary exponent. -/
def greatestExponent : Int := 971

/-- Two to the 53, the first number that is too large for a significand. -/
def significandBound : Nat := 9007199254740992

/-- Two to the 52, the least significand of 53 bits. -/
def leastFullSignificand : Nat := 4503599627370496

/-- The significands and exponents of the format, each number having one of them. -/
def Canonical (significand : Nat) (exponent : Int) : Prop :=
  significand < significandBound ∧ leastExponent ≤ exponent ∧ exponent ≤ greatestExponent ∧
    (leastFullSignificand ≤ significand ∨ exponent = leastExponent)

instance (significand : Nat) (exponent : Int) : Decidable (Canonical significand exponent) :=
  inferInstanceAs (Decidable (_ ∧ _))

/-- A finite number: a sign, a significand and the power of two it is multiplied with. -/
structure Finite where
  negative : Bool
  significand : Nat
  exponent : Int
  canonical : Canonical significand exponent
  deriving DecidableEq

end Binary64

/-- A finite number or one of the two infinities. -/
inductive Binary64 where
  | finite (number : Binary64.Finite)
  | infinite (negative : Bool)
  deriving DecidableEq

namespace Binary64

namespace Finite

/-- The zero of a sign, with the least exponent. -/
def zero (negative : Bool) : Finite where
  negative := negative
  significand := 0
  exponent := leastExponent
  canonical := by decide

instance : Inhabited Finite := ⟨zero false⟩

/-- The magnitude in units of the smallest positive number. -/
def magnitude (number : Finite) : Nat :=
  number.significand * Power.two (number.exponent - leastExponent).toNat

/-- The number in units of the smallest positive number. -/
def units (number : Finite) : Int :=
  if number.negative then -number.magnitude else number.magnitude

/-- The units in the number one. -/
def unitsOfOne : Nat := Power.two 1074

/-- Whether there is no fractional part. -/
def isWhole (number : Finite) : Bool :=
  number.magnitude % unitsOfOne == 0

/-- The integer that remains when the fractional part is dropped. -/
def truncate (number : Finite) : Int :=
  let whole : Int := number.magnitude / unitsOfOne
  if number.negative then -whole else whole

/-- The number with the other sign. -/
def negate (number : Finite) : Finite :=
  { number with negative := !number.negative }

end Finite

/-- The number itself, unless it is an infinity. -/
def finite? : Binary64 → Option Finite
  | finite number => some number
  | infinite _ => none

/-- The order of the extended line, in which the two zeros are equal. -/
def le : Binary64 → Binary64 → Bool
  | infinite true, _ => true
  | _, infinite false => true
  | finite left, finite right => left.units ≤ right.units
  | _, _ => false

/-- Equality of the numbers denoted, in which the two zeros are equal. -/
def same (left right : Binary64) : Bool :=
  left.le right && right.le left

/-- Whether the number equals its floor; infinities do. -/
def isWhole : Binary64 → Bool
  | finite number => number.isWhole
  | infinite _ => true

end Binary64

end Assortment
