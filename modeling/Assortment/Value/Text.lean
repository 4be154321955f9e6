import Assortment.Decimal.Layout
import Assortment.Numeral
import Assortment.Value.Basic

/-!
# Readings of values

Rules and templates look at a value in two ways: as a number, if it is one or is written as one,
and as text.  The text of null and of false is empty, the text of true is a one, and lists and
objects join the texts of their parts with commas.  A whole float below ten to the fifteenth is
written like an integer, so negative zero shows no sign.
-/

namespace Assortment.Value

/-- The number that a value is or, as text, denotes. -/
def number? : Value → Option Binary64
  | int number => some (Binary64.ofInt number)
  | float number => some (.finite number)
  | string text => Numeral.ofText? text
  | _ => none

/-- Whether a value is a number or is written as one. -/
def isNumeric (value : Value) : Bool :=
  value.number?.isSome

/-- The text of a float, in which a whole one that is not too large is written like an integer. -/
def floatText (number : Binary64.Finite) : String :=
  if number.isWhole && number.magnitude < Power.ten 15 * Binary64.Finite.unitsOfOne then
    number.truncate.repr
  else
    Layout.plain.text (.finite number)

mutual

/-- The text of a value. -/
def text : Value → String
  | null => ""
  | bool true => "1"
  | bool false => ""
  | int number => number.repr
  | float number => floatText number
  | string text => text
  | array items => ",".intercalate (itemTexts items)
  | object members => ",".intercalate (memberTexts members)

/-- The texts of the items of a list. -/
def itemTexts : List Value → List String
  | [] => []
  | item :: rest => text item :: itemTexts rest

/-- The texts of the values of an object; its keys are left out. -/
def memberTexts : List (String × Value) → List String
  | [] => []
  | (_, value) :: rest => text value :: memberTexts rest

end

/-- The text of a value that is neither a list nor an object. -/
def scalarText? : Value → Option String
  | array _ => none
  | object _ => none
  | value => some value.text

end Assortment.Value
