import Assortment.Json.Number
import Assortment.Text.Parser

/-!
# Reading JSON

A text is read as one JSON value with blanks around it.  Nothing beyond the standard is accepted:
no comments, no trailing commas, no control characters in strings, no surrogates that stand alone
and no more than 127 arrays and objects inside one another.  A key that is repeated in an object
keeps its first place and its last value.
-/

namespace Assortment.Json

/-- Skip blanks, tabs and line ends. -/
def blanks : Parser Unit := do
  let _ ← Parser.takeWhile fun character =>
    character == ' ' || character == '\t' || character == '\n' || character == '\r'
  return ()

/-- The number that a hexadecimal digit stands for. -/
def hexValue? (digit : Char) : Option Nat :=
  if digit.isDigit then
    some (digit.toNat - 48)
  else if 'a' ≤ digit ∧ digit ≤ 'f' then
    some (digit.toNat - 87)
  else if 'A' ≤ digit ∧ digit ≤ 'F' then
    some (digit.toNat - 55)
  else
    none

/-- Read a given number of hexadecimal digits. -/
def hexDigits : Nat → Nat → Parser Nat
  | 0, number => return number
  | count + 1, number => do
    let digit ← Parser.satisfy fun _ => true
    let value ← Parser.ofOption (hexValue? digit)
    hexDigits count (number * 16 + value)

/-- The character of a code point that is not a surrogate. -/
def scalar? (code : Nat) : Option Char :=
  if code.isValidChar then some (Char.ofNat code) else none

/-- The code unit of an escape, and with a high surrogate the low one that has to follow. -/
def unicodeEscape : Parser Char := do
  let unit ← hexDigits 4 0
  if 0xD800 ≤ unit ∧ unit < 0xDC00 then
    Parser.word "\\u"
    let low ← hexDigits 4 0
    if 0xDC00 ≤ low ∧ low < 0xE000 then
      Parser.ofOption (scalar? (0x10000 + (unit - 0xD800) * 0x400 + (low - 0xDC00)))
    else
      Parser.failure
  else
    Parser.ofOption (scalar? unit)

/-- The character that an escape stands for, behind its backslash. -/
def escapedCharacter : Parser Char := do
  let mark ← Parser.satisfy fun _ => true
  match mark with
  | '"' => return '"'
  | '\\' => return '\\'
  | '/' => return '/'
  | 'b' => return '\x08'
  | 'f' => return '\x0c'
  | 'n' => return '\n'
  | 'r' => return '\r'
  | 't' => return '\t'
  | 'u' => unicodeEscape
  | _ => Parser.failure

/-- One character of a string, written as it is or escaped. -/
def stringCharacter : Parser Char :=
  (Parser.satisfy fun character =>
    character != '"' && character != '\\' && 0x20 ≤ character.toNat) <|>
  (do
    let _ ← Parser.char '\\'
    escapedCharacter)

/-- A text between quotes, with its escapes taken back. -/
def stringLiteral : Parser String := do
  let _ ← Parser.char '"'
  let characters ← Parser.many stringCharacter
  let _ ← Parser.char '"'
  return String.ofList characters

/-- The digits before the point, of which a leading zero stands alone. -/
def wholeDigits : Parser (List Char) := do
  let digits ← Parser.takeWhile1 Char.isDigit
  match digits with
  | '0' :: _ :: _ => Parser.failure
  | _ => return digits

/-- A number with an optional sign, fraction and power, if the data has a value for it. -/
def number : Parser Value := do
  let minus ← Parser.optional (Parser.char '-')
  let whole ← wholeDigits
  let fraction ← Parser.optional do
    let _ ← Parser.char '.'
    Parser.takeWhile Char.isDigit
  if fraction = some [] then
    Parser.failure
  else
    let mark ← Parser.optional (Parser.satisfy fun character =>
      character == 'e' || character == 'E')
    let power ←
      if mark.isSome then do
        let sign ← Parser.optional (Parser.satisfy fun character =>
          character == '+' || character == '-')
        let digits ← Parser.takeWhile1 Char.isDigit
        pure (some (sign == some '-', digits))
      else
        pure none
    Parser.ofOption (NumberText.value? ⟨minus.isSome, whole, fraction.getD [], power⟩)

/-- A value that is neither a list nor an object. -/
def scalarValue : Parser Value :=
  (do Parser.word "null"; return .null) <|>
  (do Parser.word "true"; return .bool true) <|>
  (do Parser.word "false"; return .bool false) <|>
  (do return .string (← stringLiteral)) <|>
  number

/-- Something with blanks on both sides. -/
def spaced {α : Type} (parser : Parser α) : Parser α := do
  blanks
  let result ← parser
  blanks
  return result

/-- A list of what the given parser reads, between brackets. -/
def arrayOf (item : Parser Value) : Parser Value := do
  let _ ← Parser.char '['
  let items ←
    (Parser.separated1 (Parser.char ',') (spaced item)) <|> (do blanks; return [])
  let _ ← Parser.char ']'
  return .array items

/-- A key, a colon and a value that is read by a parser. -/
def memberOf (item : Parser Value) : Parser (String × Value) := do
  let key ← spaced stringLiteral
  let _ ← Parser.char ':'
  let value ← spaced item
  return (key, value)

/-- An object of what the given parser reads, of which a repeated key keeps its last value. -/
def objectOf (item : Parser Value) : Parser Value := do
  let _ ← Parser.char '{'
  let members ←
    (Parser.separated1 (Parser.char ',') (memberOf item)) <|> (do blanks; return [])
  let _ ← Parser.char '}'
  return .object (Entries.ofList members)

/-- A value with at most a number of lists and objects inside one another. -/
def value : Nat → Parser Value
  | 0 => scalarValue
  | depth + 1 => arrayOf (value depth) <|> objectOf (value depth) <|> scalarValue

/-- How many lists and objects may stand inside one another. -/
def greatestDepth : Nat := 127

/-- The value that a text denotes. -/
def parse? (text : String) : Option Value :=
  Parser.run (spaced (value greatestDepth)) text.toList

end Assortment.Json
