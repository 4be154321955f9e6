import Assortment.Binary64.Rounding
import Assortment.Text.Blank
import Assortment.Text.Cut
import Assortment.Text.DecimalDigit
import Assortment.Word

/-!
# Numbers written as text

A numeral is an optional sign, digits with an optional point among or before them, and an optional
power of ten.  Its shape admits the decimal digits of every script, but only ASCII digits have a
value, so a numeral with any other digit is recognised and yet denotes nothing.

`Numeral.read` takes the longest numeral that begins a text.  `Numeral.ofText?` asks for a numeral
that fills the whole text, blanks at both ends aside, and `Numeral.leading` makes do with the
longest beginning and falls back to zero.

`canonicalInt?` reads the narrower notation of integers that have no superfluous zeros.  Its shape
too admits digits of every script behind the first one.  The digits are gathered into a signed word
one by one, and the text denotes nothing as soon as one of them has no value or no room.
-/

namespace Assortment

/-- The parts of a number written as text. -/
structure Numeral where
  negative : Bool
  whole : List Char
  fraction : List Char
  power : Option (Bool × List Char)
  deriving DecidableEq

namespace Numeral

open Text

/-- Take a sign from the front; the answer says whether it was a minus. -/
def takeSign : List Char → Bool × List Char
  | '-' :: rest => (true, rest)
  | '+' :: rest => (false, rest)
  | text => (false, text)

/-- Take a power of ten from the front, if a complete one is there. -/
def takePower : List Char → Option (Bool × List Char) × List Char
  | [] => (none, [])
  | mark :: rest =>
    let signed := takeSign rest
    let digits := signed.2.takeWhile isDecimalDigit
    if (mark = 'e' ∨ mark = 'E') ∧ digits ≠ [] then
      (some (signed.1, digits), signed.2.dropWhile isDecimalDigit)
    else
      (none, mark :: rest)

/-- The digits before the point, those after it, and the text behind both. -/
def takeDigits (text : List Char) : List Char × List Char × List Char :=
  let whole := text.takeWhile isDecimalDigit
  match text.dropWhile isDecimalDigit with
  | '.' :: rest =>
    let fraction := rest.takeWhile isDecimalDigit
    if whole = [] ∧ fraction = [] then
      ([], [], text)
    else
      (whole, fraction, rest.dropWhile isDecimalDigit)
  | rest => (whole, [], rest)

/-- The longest numeral at the front of a text, with the text behind it. -/
def read (text : List Char) : Option (Numeral × List Char) :=
  let signed := takeSign text
  match takeDigits signed.2 with
  | ([], [], _) => none
  | (whole, fraction, rest) =>
    let powered := takePower rest
    some (⟨signed.1, whole, fraction, powered.1⟩, powered.2)

/-- The natural number that ASCII digits denote. -/
def natOfDigits (digits : List Char) : Nat :=
  Nat.ofDigitChars 10 digits 0

/-- All digits that are written, those of the power at the end. -/
def digits (numeral : Numeral) : List Char :=
  numeral.whole ++ numeral.fraction ++ (numeral.power.map Prod.snd).getD []

/-- The power of ten as an integer, zero when there is none. -/
def powerValue (numeral : Numeral) : Int :=
  match numeral.power with
  | none => 0
  | some (true, digits) => -natOfDigits digits
  | some (false, digits) => natOfDigits digits

/-- The nearest float to the number denoted, unless a digit is not an ASCII digit. -/
def value? (numeral : Numeral) : Option Binary64 :=
  if numeral.digits.all Char.isDigit then
    some
      (Binary64.ofDecimal numeral.negative (natOfDigits (numeral.whole ++ numeral.fraction))
        (numeral.powerValue - numeral.fraction.length))
  else
    none

/-- The number that a text denotes as a whole, numeric blanks at both ends aside. -/
def ofText? (text : String) : Option Binary64 :=
  match read (trim isNumericBlank text.toList) with
  | some (numeral, []) => numeral.value?
  | _ => none

/-- The number at the front of a text behind numeric blanks, or zero when there is none. -/
def leading (text : String) : Binary64 :=
  let found := read (trimStart isNumericBlank text.toList)
  (found.bind fun numeralAndRest => numeralAndRest.1.value?).getD (.finite (.zero false))

/-- The shape of digits without a superfluous zero, in which only the first has to be ASCII. -/
def canonicalShape : List Char → Bool
  | [] => false
  | first :: rest =>
    if first = '0' then rest.isEmpty else first.isDigit && rest.all isDecimalDigit

/-- The value of an ASCII digit. -/
def digitValue? (digit : Char) : Option Nat :=
  if digit.isDigit then some (digit.toNat - '0'.toNat) else none

/-- Put a digit behind those of a signed word, which is thereby moved away from zero. -/
def pushDigit? (negative : Bool) (word : Int) (digit : Char) : Option Int := do
  let scaled ← Word.signed? (word * 10)
  let value ← digitValue? digit
  Word.signed? (if negative then scaled - value else scaled + value)

/-- The signed word that digits denote behind a sign, unless they overflow it. -/
def wordOfDigits? (negative : Bool) (digits : List Char) : Option Int :=
  digits.foldlM (pushDigit? negative) 0

/-- The integer of signed word size that a text denotes in canonical notation. -/
def canonicalInt? (text : String) : Option Int :=
  let signed := takeSign (trim isNumericBlank text.toList)
  if canonicalShape signed.2 then wordOfDigits? signed.1 signed.2 else none

example : ofText? " 1.5e2\n" = some (.ofInt 150) := by decide +kernel

example : ofText? "1.5 e2" = none := by decide +kernel

example : leading " 12abc" = .ofInt 12 := by decide +kernel

example : canonicalInt? " -3 " = some (-3) := by decide +kernel

example : canonicalInt? "012" = none := by decide +kernel

example : canonicalInt? "9223372036854775808" = none := by decide +kernel

end Numeral

end Assortment
