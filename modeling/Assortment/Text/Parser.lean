/-!
# Parsers

A parser reads something from the front of a text and gives the rest, or fails without a reason.
Alternatives are tried in order on the same text, so the first one that succeeds decides.

Repetition is total because it is bounded by the length of the text that is left: a parser that is
repeated is meant to take at least one character each time.
-/

namespace Assortment

/-- A reader of the front of a text. -/
def Parser (α : Type) : Type :=
  List Char → Option (α × List Char)

namespace Parser

variable {α β : Type}

instance : Monad Parser where
  pure value := fun text => some (value, text)
  bind parser next := fun text =>
    match parser text with
    | none => none
    | some (value, rest) => next value rest

/-- The parser that accepts nothing. -/
def failure : Parser α := fun _ => none

/-- Try a parser, and on failure another one on the same text. -/
def orElse (first second : Parser α) : Parser α := fun text =>
  match first text with
  | some result => some result
  | none => second text

instance : OrElse (Parser α) := ⟨fun first second => orElse first (second ())⟩

/-- Succeed with the value of an option, or fail. -/
def ofOption (result : Option α) : Parser α := fun text =>
  result.map fun value => (value, text)

/-- Take one character of a class. -/
def satisfy (accepts : Char → Bool) : Parser Char
  | [] => none
  | character :: rest => if accepts character then some (character, rest) else none

/-- One given character. -/
def char (expected : Char) : Parser Char :=
  satisfy (· == expected)

/-- A given text, character by character. -/
def word (expected : String) : Parser Unit := fun text =>
  if expected.toList.isPrefixOf text then
    some ((), text.drop expected.length)
  else
    none

/-- The next character, which is not taken. -/
def next? : Parser (Option Char) := fun text =>
  some (text.head?, text)

/-- Nothing, at the end of the text only. -/
def atEnd : Parser Unit
  | [] => some ((), [])
  | _ => none

/-- Take all characters of a class from the front, perhaps none. -/
def takeWhile (accepts : Char → Bool) : Parser (List Char) := fun text =>
  some (text.takeWhile accepts, text.dropWhile accepts)

/-- Take all characters of a class from the front, at least one. -/
def takeWhile1 (accepts : Char → Bool) : Parser (List Char) := do
  let first ← satisfy accepts
  let others ← takeWhile accepts
  return first :: others

/-- Run a parser if it succeeds, and take nothing otherwise. -/
def optional (parser : Parser α) : Parser (Option α) := fun text =>
  match parser text with
  | some (value, rest) => some (some value, rest)
  | none => some (none, text)

/-- Repeat a parser at most a number of times, as often as it succeeds. -/
def repeatAtMost (parser : Parser α) : Nat → Parser (List α)
  | 0 => pure []
  | count + 1 => fun text =>
    match parser text with
    | none => some ([], text)
    | some (value, rest) =>
      match repeatAtMost parser count rest with
      | none => none
      | some (values, behind) => some (value :: values, behind)

/-- Repeat a parser as often as it succeeds. -/
def many (parser : Parser α) : Parser (List α) := fun text =>
  repeatAtMost parser text.length text

/-- Repeat a parser with a separator between every two of its results, at least once. -/
def separated1 (separator : Parser β) (parser : Parser α) : Parser (List α) := do
  let first ← parser
  let others ← many (do let _ ← separator; parser)
  return first :: others

/-- What a parser makes of a text that it has to use up. -/
def run (parser : Parser α) (text : List Char) : Option α :=
  match parser text with
  | some (value, []) => some value
  | _ => none

end Parser

end Assortment
