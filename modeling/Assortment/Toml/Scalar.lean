import Assortment.Toml.DateTime
import Assortment.Toml.Lexical

/-!
# Scalars of TOML

Strings, truth values, dates, floats and integers.  Integers have to fit into a signed word.
Floats are rounded to the nearest; one that overflows upwards is refused, while the infinities,
the word for what is no number, and a float that overflows downwards have no counterpart among the
values and are read as null.  A date is read as an object whose only member holds its text.
-/

namespace Assortment.Toml

/-- The key of the object that stands for a date. -/
def dateTimeKey : String := "$__toml_private_datetime"

/-- One digit or more of a class, each two of them perhaps with an underscore between. -/
def separatedDigits (accepts : Char → Bool) : Parser (List Char) := do
  let first ← Parser.satisfy accepts
  let others ← Parser.many <|
    Parser.satisfy accepts <|>
      (do
        let _ ← Parser.char '_'
        Parser.satisfy accepts)
  return first :: others

/-- An optional sign, true for a minus. -/
def sign : Parser Bool := do
  let mark ← Parser.optional (Parser.satisfy fun character =>
    character == '+' || character == '-')
  return mark == some '-'

/-- A sign and decimal digits without a superfluous zero in front. -/
def decimalDigits : Parser (Bool × List Char) := do
  let negative ← sign
  let start ← Parser.next?
  let digits ←
    if start = some '0' then
      Toml.digits 1
    else
      separatedDigits Char.isDigit
  return (negative, digits)

/-- The value of an integer that fits into a signed word. -/
def integerValue (integer : Int) : Parser Value :=
  if Word.Signed integer then return .int integer else Parser.failure

/-- An integer behind a mark for its base. -/
def basedInteger (mark : String) (base : Nat) : Parser Value := do
  Parser.word mark
  let digits ← separatedDigits fun digit =>
    match Json.hexValue? digit with
    | some value => value < base
    | none => false
  integerValue
    (digits.foldl (fun number digit => number * base + (Json.hexValue? digit).getD 0) 0 : Nat)

/-- An integer in one of four bases, of which only the decimal one takes a sign. -/
def integer : Parser Value :=
  basedInteger "0x" 16 <|> basedInteger "0o" 8 <|> basedInteger "0b" 2 <|>
  (do
    let (negative, digits) ← decimalDigits
    let magnitude : Int := Numeral.natOfDigits digits
    integerValue (if negative then -magnitude else magnitude))

/-- The power of ten of a float. -/
def power : Parser (Bool × List Char) := do
  let _ ← Parser.satisfy fun character => character == 'e' || character == 'E'
  let negative ← sign
  let digits ← separatedDigits Char.isDigit
  return (negative, digits)

/-- A float, which has a fraction or a power; without both it is an integer. -/
def decimalFloat : Parser Value := do
  let (negative, whole) ← decimalDigits
  let fraction ← Parser.optional do
    let _ ← Parser.char '.'
    separatedDigits Char.isDigit
  let written ← Parser.optional power
  if fraction.isNone ∧ written.isNone then
    Parser.failure
  else
    match Numeral.value? ⟨negative, whole, fraction.getD [], written⟩ with
    | some (.finite number) => return .float number
    | some (.infinite true) => return .null
    | _ => Parser.failure

/-- An infinity or what is not a number, for which the data has nothing but null. -/
def specialFloat : Parser Value := do
  let _ ← sign
  Parser.word "inf" <|> Parser.word "nan"
  return .null

/-- A value that is neither a list nor a table; dates and floats begin like integers and are tried
first. -/
def scalar : Parser Value :=
  (do return .string (← anyString)) <|>
  (do Parser.word "true"; return .bool true) <|>
  (do Parser.word "false"; return .bool false) <|>
  (do return .object [(dateTimeKey, .string (← dateTime))]) <|>
  decimalFloat <|> specialFloat <|> integer

end Assortment.Toml
