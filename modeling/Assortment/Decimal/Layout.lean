import Assortment.Decimal.Shortest

/-!
# Layouts of decimals

A decimal is written positionally, with its point among or beside its digits, or scientifically,
with one digit before the point and a power of ten.  A `Layout` says which numbers are written
positionally, whether whole numbers show a fractional zero and where ties go; `Layout.plain` is
the layout of text and `Layout.marked` the one of JSON.
-/

namespace Assortment

/-- The decisions of a notation for floats. -/
structure Layout where
  /-- The least and the greatest power of ten of a first digit written positionally, if any. -/
  positional : Option (Int × Int)
  /-- Whether a whole number is written with a zero after the point. -/
  marksWhole : Bool
  /-- Where a number halfway between two shortest decimals goes. -/
  tie : Tie
  deriving DecidableEq

namespace Layout

/-- All numbers are positional and whole numbers show no point. -/
def plain : Layout where
  positional := none
  marksWhole := false
  tie := .up

/-- Positional from 0.00001 to below ten to the sixteenth, and never mistaken for an integer. -/
def marked : Layout where
  positional := some (-5, 15)
  marksWhole := true
  tie := .even

/-- The digits with the point in its place. -/
def positionalText (marksWhole : Bool) (decimal : Decimal) : List Char :=
  if decimal.point ≤ 0 then
    ['0', '.'] ++ List.replicate (-decimal.point).toNat '0' ++ decimal.digits
  else if decimal.digits.length ≤ decimal.point.toNat then
    decimal.digits ++ List.replicate (decimal.point.toNat - decimal.digits.length) '0' ++
      (if marksWhole then ['.', '0'] else [])
  else
    decimal.digits.take decimal.point.toNat ++ '.' :: decimal.digits.drop decimal.point.toNat

/-- One digit, the others after the point, and the power of ten with its sign. -/
def scientificText (decimal : Decimal) : List Char :=
  let power := decimal.point - 1
  let mantissa :=
    match decimal.digits with
    | first :: second :: others => first :: '.' :: second :: others
    | digits => digits
  mantissa ++ ['e', if power < 0 then '-' else '+'] ++ Nat.toDigits 10 power.natAbs

/-- A decimal in the notation that the layout has for its size. -/
def decimalText (layout : Layout) (decimal : Decimal) : List Char :=
  match layout.positional with
  | none => positionalText layout.marksWhole decimal
  | some (least, greatest) =>
    if least ≤ decimal.point - 1 ∧ decimal.point - 1 ≤ greatest then
      positionalText layout.marksWhole decimal
    else
      scientificText decimal

/-- The text of a finite float, a minus sign standing also before zero. -/
def finiteText (layout : Layout) (number : Binary64.Finite) : List Char :=
  (if number.negative then ['-'] else []) ++
    layout.decimalText (Decimal.shortest layout.tie number)

/-- The text of a float, the infinities being words. -/
def text (layout : Layout) : Binary64 → String
  | .finite number => String.ofList (layout.finiteText number)
  | .infinite false => "inf"
  | .infinite true => "-inf"

end Layout

end Assortment
