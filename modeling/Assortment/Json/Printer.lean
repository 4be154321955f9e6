import Assortment.Decimal.Layout
import Assortment.Value.Basic

/-!
# JSON text of values

Values that appear in messages are written as compact JSON: no blanks, members in order, and only
the quotation mark, the backslash and the control characters below the blank escaped in strings.
Floats show a fractional part or an exponent, so they are told apart from integers.
-/

namespace Assortment.Json

/-- The hexadecimal digit of a number below sixteen, in lower case. -/
def hexDigit (digit : Nat) : Char :=
  if digit < 10 then Char.ofNat (48 + digit) else Char.ofNat (87 + digit)

/-- The characters that stand for one character inside quotation marks. -/
def escape (character : Char) : List Char :=
  if character = '"' then
    ['\\', '"']
  else if character = '\\' then
    ['\\', '\\']
  else if character.toNat < 0x20 then
    if character.toNat = 8 then
      ['\\', 'b']
    else if character.toNat = 9 then
      ['\\', 't']
    else if character.toNat = 10 then
      ['\\', 'n']
    else if character.toNat = 12 then
      ['\\', 'f']
    else if character.toNat = 13 then
      ['\\', 'r']
    else
      ['\\', 'u', '0', '0', hexDigit (character.toNat / 16), hexDigit (character.toNat % 16)]
  else
    [character]

/-- A text between quotes, with what has to be escaped in it. -/
def quote (text : String) : String :=
  String.ofList ('"' :: text.toList.flatMap escape ++ ['"'])

mutual

/-- The compact JSON text of a value. -/
def render : Value → String
  | .null => "null"
  | .bool true => "true"
  | .bool false => "false"
  | .int number => number.repr
  | .float number => String.ofList (Layout.marked.finiteText number)
  | .string text => quote text
  | .array items => "[" ++ ",".intercalate (renderItems items) ++ "]"
  | .object members => "\x7b" ++ ",".intercalate (renderMembers members) ++ "\x7d"

/-- The items of a list, each as it is rendered. -/
def renderItems : List Value → List String
  | [] => []
  | item :: rest => render item :: renderItems rest

/-- The members of an object, each with its key and a colon in front. -/
def renderMembers : List (String × Value) → List String
  | [] => []
  | (key, value) :: rest => (quote key ++ ":" ++ render value) :: renderMembers rest

end

end Assortment.Json
