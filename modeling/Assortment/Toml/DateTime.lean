import Assortment.Text.Parser
import Assortment.Numeral

/-!
# Dates and times in TOML

A date, a time of day, or a date with a time and perhaps an offset.  Dates are checked against the
calendar.  They are written back in one form: a letter between date and time, a fraction of a
second only if it is not zero and then without trailing zeros and at most nine places, and the
offset zero as a letter only where it was given as one.
-/

namespace Assortment.Toml

/-- A given number of digits. -/
def digits : Nat → Parser (List Char)
  | 0 => return []
  | count + 1 => do
    let first ← Parser.satisfy Char.isDigit
    let others ← digits count
    return first :: others

/-- A number of a given count of digits within bounds, with its digits. -/
def bounded (count least greatest : Nat) : Parser (List Char × Nat) := do
  let text ← digits count
  let number := Numeral.natOfDigits text
  if least ≤ number ∧ number ≤ greatest then
    return (text, number)
  else
    Parser.failure

/-- Whether a year of the Gregorian calendar is a leap year. -/
def isLeapYear (year : Nat) : Bool :=
  year % 4 == 0 && (year % 100 != 0 || year % 400 == 0)

/-- The number of days of a month. -/
def daysOf (year month : Nat) : Nat :=
  if month = 2 then
    if isLeapYear year then 29 else 28
  else if month = 4 ∨ month = 6 ∨ month = 9 ∨ month = 11 then
    30
  else
    31

/-- A date that is in the calendar. -/
def date : Parser (List Char) := do
  let (yearText, year) ← bounded 4 0 9999
  let _ ← Parser.char '-'
  let (monthText, month) ← bounded 2 1 12
  let _ ← Parser.char '-'
  let (dayText, day) ← bounded 2 1 31
  if day ≤ daysOf year month then
    return yearText ++ '-' :: monthText ++ '-' :: dayText
  else
    Parser.failure

/-- The fraction of a second as it is written back. -/
def fractionText (digits : List Char) : List Char :=
  match ((digits.take 9).reverse.dropWhile (· == '0')).reverse with
  | [] => []
  | kept => '.' :: kept

/-- A time of day, which may be a leap second, with its fraction as far as it is kept. -/
def time : Parser (List Char) := do
  let (hour, _) ← bounded 2 0 23
  let _ ← Parser.char ':'
  let (minute, _) ← bounded 2 0 59
  let _ ← Parser.char ':'
  let (second, _) ← bounded 2 0 60
  let fraction ← Parser.optional do
    let _ ← Parser.char '.'
    Parser.takeWhile1 Char.isDigit
  return hour ++ ':' :: minute ++ ':' :: second ++ fractionText (fraction.getD [])

/-- An offset from universal time, of which zero is never negative. -/
def offset : Parser (List Char) :=
  (do
    let _ ← Parser.satisfy fun character => character == 'Z' || character == 'z'
    return ['Z']) <|>
  (do
    let sign ← Parser.satisfy fun character => character == '+' || character == '-'
    let (hourText, hour) ← bounded 2 0 23
    let _ ← Parser.char ':'
    let (minuteText, minute) ← bounded 2 0 59
    let shown := if hour = 0 ∧ minute = 0 then '+' else sign
    return shown :: hourText ++ ':' :: minuteText)

/-- The time that may follow a date, with its offset if there is one. -/
def timeBehindDate : Parser (List Char) := do
  let _ ← Parser.satisfy fun character =>
    character == 'T' || character == 't' || character == ' '
  let timeText ← time
  let offsetText ← Parser.optional offset
  return 'T' :: timeText ++ offsetText.getD []

/-- A date, a time, or both, as it is written back. -/
def dateTime : Parser String :=
  (do
    let dateText ← date
    let timeText ← Parser.optional timeBehindDate
    return String.ofList (dateText ++ timeText.getD [])) <|>
  (do return String.ofList (← time))

end Assortment.Toml
