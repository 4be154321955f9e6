import Assortment.Text.Cut
import Assortment.Value.Text

/-!
# Rules

A rule is written as a name, which may be followed by a parameter in square brackets.  The name
and the parameter decide a `Criterion`: what the rule asks of a value.  A name that is not known
stands for a criterion that every value meets, so a misspelt rule rejects nothing.

The text of a rule is its name with the bracketed parameter, and it parses back to the rule it
came from.  Text after the closing bracket is dropped when a rule is parsed, so different texts
may denote one rule.
-/

namespace Assortment

/-- What is asked of a value. -/
inductive Criterion where
  /-- The value is neither null nor the empty text. -/
  | required
  /-- The value can be read as a number. -/
  | numeric
  /-- The value is an integer, or is written as one that is not zero. -/
  | integer
  /-- The value can be read as a number that is not whole. -/
  | decimal
  /-- The text of the value consists of digits. -/
  | natural
  /-- The text of the value consists of digits that are not all zero. -/
  | naturalNoZero
  /-- The value can be read as a number that is no less than a bound. -/
  | min (bound : Binary64)
  /-- The value can be read as a number that is no greater than a bound. -/
  | max (bound : Binary64)
  /-- The text of the value is listed. -/
  | oneOf (allowed : List String)
  /-- Nothing is asked. -/
  | unknown (name : String)
  deriving DecidableEq

namespace Criterion

/-- The criterion that a rule's name and parameter stand for; an absent bound is zero. -/
def ofParts (name : String) (parameter : Option String) : Criterion :=
  if name = "required" then
    required
  else if name = "numeric" then
    numeric
  else if name = "integer" then
    integer
  else if name = "decimal" then
    decimal
  else if name = "natural" then
    natural
  else if name = "natural_no_zero" then
    naturalNoZero
  else if name = "min" then
    min (Numeral.leading (parameter.getD ""))
  else if name = "max" then
    max (Numeral.leading (parameter.getD ""))
  else if name = "val" then
    oneOf (Text.splitAt ',' (parameter.getD ""))
  else
    unknown name

/-- A text that is not empty and holds ASCII digits only. -/
def isDigits (text : String) : Bool :=
  !text.isEmpty && text.toList.all Char.isDigit

/--
Whether the value is an integer, or is written as one that is not zero.

Integers of signed word size pass as they are.  Any other number passes when the float it denotes
is whole, is not zero and lies within the signed words, and the flag true passes as a one.
-/
def acceptsInteger : Value → Bool
  | .int number =>
    decide (Word.Signed number) || floatInWord (Binary64.ofInt number)
  | .float number => floatInWord (.finite number)
  | .string text => (Numeral.canonicalInt? text).any (· != 0)
  | .bool flag => flag
  | _ => false
where
  /-- A whole float other than zero whose magnitude is below two to the 63. -/
  floatInWord : Binary64 → Bool
    | .finite number =>
      number.isWhole && number.magnitude != 0 &&
        number.magnitude < Word.signedBound * Binary64.Finite.unitsOfOne
    | .infinite _ => false

/-- Whether a value meets the criterion. -/
def accepts : Criterion → Value → Bool
  | required, value => !value.isBlank
  | numeric, value => value.isNumeric
  | integer, value => acceptsInteger value
  | decimal, value => value.number?.any fun number => !number.isWhole
  | natural, value => value.scalarText?.any isDigits
  | naturalNoZero, value =>
    value.scalarText?.any fun text => isDigits text && text.toList.any (· != '0')
  | min bound, value => value.number?.any fun number => bound.le number
  | max bound, value => value.number?.any fun number => number.le bound
  | oneOf allowed, value => value.scalarText?.any fun text => allowed.contains text
  | unknown _, _ => true

end Criterion

/-- A named demand on a value, as it is written. -/
structure Rule where
  name : String
  parameter : Option String
  deriving DecidableEq

namespace Rule

/--
Read a rule from its text.  The parameter stands between the first opening bracket and the next
closing one; without such a pair the whole text is the name.
-/
def parse (text : String) : Rule :=
  match Text.cut '[' text.toList with
  | none => ⟨text, none⟩
  | some (name, bracketed) =>
    match Text.cut ']' bracketed with
    | none => ⟨text, none⟩
    | some (parameter, _) => ⟨String.ofList name, some (String.ofList parameter)⟩

/-- The name followed by the parameter in brackets, if there is one. -/
def text (rule : Rule) : String :=
  match rule.parameter with
  | none => rule.name
  | some parameter => rule.name ++ "[" ++ parameter ++ "]"

/-- What the rule asks of a value. -/
def criterion (rule : Rule) : Criterion :=
  Criterion.ofParts rule.name rule.parameter

/-- Whether a value satisfies the rule. -/
def accepts (rule : Rule) (value : Value) : Bool :=
  rule.criterion.accepts value

example : (parse "min[1000]").criterion = .min (.ofInt 1000) := by decide +kernel

example : (parse "val[left,right]").criterion = .oneOf ["left", "right"] := by decide +kernel

example : parse "min[1]0]" = ⟨"min", some "1"⟩ := by decide +kernel

end Rule

end Assortment
