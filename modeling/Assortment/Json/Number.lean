import Assortment.Binary64.Rounding
import Assortment.Numeral
import Assortment.Value.Basic

/-!
# Numbers in JSON

A number without a fraction and an exponent is an integer if it fits into a signed or an unsigned
word, and any other number is a float.

A float is computed in words and not from all its digits.  The digits are gathered into an
unsigned word as long as they fit; later digits before the point count as powers of ten and later
digits behind the point are dropped.  The gathered significand is rounded to a float, and so is
the product or quotient with a power of ten, in steps of at most 308.  The result may therefore
differ from the nearest float in its last place.  A number beyond the range of floats is refused.
-/

namespace Assortment.Json

/-- The characters of a number. -/
structure NumberText where
  negative : Bool
  whole : List Char
  fraction : List Char
  power : Option (Bool × List Char)

/--
Gather digits behind a significand as long as it stays below two to the 64; the answer is the new
significand, how many digits were gathered and how many were left over.
-/
def gather : Nat → List Char → Nat × Nat × Nat
  | significand, [] => (significand, 0, 0)
  | significand, digit :: rest =>
    let extended := significand * 10 + (digit.toNat - '0'.toNat)
    if extended < Word.unsignedBound then
      let gathered := gather extended rest
      (gathered.1, gathered.2.1 + 1, gathered.2.2)
    else
      (significand, 0, rest.length + 1)

/-- The float that is closest to a power of ten, for powers within its range. -/
def powerOfTen (power : Nat) : Binary64.Finite :=
  ((Binary64.ofDecimal false 1 power).finite?).getD default

/--
Multiply a float by a power of ten, in at most a number of steps.  A significand of 64 bits
vanishes after three divisions by the largest power, so four steps are always enough.
-/
def scale : Nat → Binary64.Finite → Int → Option Binary64.Finite
  | 0, number, _ => some number
  | steps + 1, number, power =>
    if power.natAbs ≤ 308 then
      if 0 ≤ power then
        (number.mul (powerOfTen power.natAbs)).finite?
      else
        (number.div (powerOfTen power.natAbs)).finite?
    else if number.significand = 0 then
      some number
    else if 0 ≤ power then
      none
    else
      match (number.div (powerOfTen 308)).finite? with
      | some smaller => scale steps smaller (power + 308)
      | none => none

/-- The largest power of ten that is computed with; a larger one overflows or vanishes. -/
def greatestPower : Nat := 2147483647

/-- The float of a significand, a power of ten, and the power written behind it. -/
def floatOf? (significand : Nat) (power : Int) (written : Option (Bool × List Char)) :
    Option Binary64.Finite :=
  match written with
  | none => scaled power
  | some (downwards, digits) =>
    let magnitude := Numeral.natOfDigits digits
    if greatestPower < magnitude then
      if significand ≠ 0 ∧ downwards = false then none else some (.zero false)
    else
      scaled (if downwards then power - magnitude else power + magnitude)
where
  /-- The significand as a float, scaled by a power of ten. -/
  scaled (power : Int) : Option Binary64.Finite :=
    match (Binary64.ofInt significand).finite? with
    | some number => scale 4 number power
    | none => none

/-- The value of a number, unless it is beyond the range of floats. -/
def NumberText.value? (text : NumberText) : Option Value :=
  let (significand, _, beyond) := gather 0 text.whole
  if beyond = 0 ∧ text.fraction = [] ∧ text.power = none then
    if text.negative then
      if 0 < significand ∧ significand ≤ Word.signedBound then
        some (.int (-significand))
      else
        (signed (Binary64.ofInt significand).finite?).map .float
    else
      some (.int significand)
  else
    let (extended, places, _) := gather significand text.fraction
    (signed (floatOf? extended (beyond - places) text.power)).map .float
where
  /-- Give a magnitude the sign of the text. -/
  signed (magnitude : Option Binary64.Finite) : Option Binary64.Finite :=
    magnitude.map fun number => { number with negative := text.negative }

end Assortment.Json
