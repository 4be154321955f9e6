import Assortment.Binary64.Rounding

/-!
# The fewest digits that read back

A float is written with the fewest significant decimal digits from which rounding recovers it, and
among the decimals of that length with the one nearest to it.  The decimals that read back form an
interval around the float whose ends are halfway to its neighbours; the ends belong to it when the
significand is even.

For one digit, two digits and so on up to seventeen, the two neighbours of the float on the grid
of decimals of that length are tested with exact arithmetic, and the first grid with a hit is
taken.  Of two hits the nearer one wins; an exact tie is a matter of the notation, which chooses a
`Tie`.
-/

namespace Assortment

/-- Where a number exactly halfway between two decimals of equal length goes. -/
inductive Tie where
  | up
  | even
  deriving DecidableEq

/--
A positive decimal: its significant digits, and the number of digits before the point, which is
zero or negative when zeros stand between the point and the first digit.
-/
structure Decimal where
  digits : List Char
  point : Int
  deriving DecidableEq

namespace Decimal

/-- The decimals that read back, as numerators over one denominator. -/
structure Interval where
  low : Nat
  middle : Nat
  high : Nat
  denominator : Nat
  closed : Bool

/-- The interval of a float other than zero. -/
def Interval.ofFinite (number : Binary64.Finite) : Interval :=
  let power := number.exponent - 2
  let scale := Power.two power.toNat
  let middle := 4 * number.significand
  let below :=
    if number.significand = Binary64.leastFullSignificand ∧ Binary64.leastExponent < number.exponent then 1 else 2
  { low := (middle - below) * scale
    middle := middle * scale
    high := (middle + 2) * scale
    denominator := Power.two (-power).toNat
    closed := number.significand % 2 == 0 }

/-- Whether a multiple of a power of ten lies in the interval. -/
def Interval.contains (interval : Interval) (multiple : Nat) (power : Int) : Bool :=
  let place := multiple * Power.ten power.toNat * interval.denominator
  let grain := Power.ten (-power).toNat
  if interval.closed then
    interval.low * grain ≤ place && place ≤ interval.high * grain
  else
    interval.low * grain < place && place < interval.high * grain

/-- How many digits a positive quotient has before its point. -/
def pointOf (numerator denominator : Nat) : Int :=
  let guess : Int :=
    (Nat.toDigits 10 numerator).length - (Nat.toDigits 10 denominator).length
  if denominator * Power.ten guess.toNat ≤ numerator * Power.ten (-guess).toNat then
    guess + 1
  else
    guess

/-- Take the nearer of two neighbouring multiples of a power of ten. -/
def Interval.nearer (interval : Interval) (tie : Tie) (below : Nat) (power : Int) : Nat :=
  let twice := 2 * interval.middle * Power.ten (-power).toNat
  let halfway := (2 * below + 1) * Power.ten power.toNat * interval.denominator
  if twice < halfway then
    below
  else if halfway < twice then
    below + 1
  else
    match tie with
    | .up => below + 1
    | .even => if below % 2 = 0 then below else below + 1

/--
Search the grids from a number of digits on, with a bound on how many grids remain; the answer is
a multiple and the power of ten it is multiplied with.
-/
def Interval.search
    (interval : Interval)
    (tie : Tie)
    (point : Int) :
    (remaining digits : Nat) → Nat × Int
  | 0, digits =>
    let power := point - digits
    (interval.middle * Power.ten (-power).toNat / (interval.denominator * Power.ten power.toNat), power)
  | remaining + 1, digits =>
    let power := point - digits
    let below :=
      interval.middle * Power.ten (-power).toNat / (interval.denominator * Power.ten power.toNat)
    match interval.contains below power, interval.contains (below + 1) power with
    | true, true => (interval.nearer tie below power, power)
    | true, false => (below, power)
    | false, true => (below + 1, power)
    | false, false => interval.search tie point remaining (digits + 1)

/-- A multiple of a power of ten as a decimal without trailing zeros. -/
def ofMultiple (multiple : Nat) (power : Int) : Decimal :=
  let digits := Nat.toDigits 10 multiple
  { digits := (digits.reverse.dropWhile (· == '0')).reverse
    point := power + digits.length }

/-- The shortest decimal that reads back as a float, of which only the magnitude counts. -/
def shortest (tie : Tie) (number : Binary64.Finite) : Decimal :=
  if number.significand = 0 then
    { digits := ['0'], point := 1 }
  else
    let interval := Interval.ofFinite number
    let found := interval.search tie (pointOf interval.middle interval.denominator) 17 1
    ofMultiple found.1 found.2

end Decimal

end Assortment
