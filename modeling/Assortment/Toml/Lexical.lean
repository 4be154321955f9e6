import Assortment.Json.Parser

/-!
# The lexical elements of TOML

Blanks, line ends and comments separate the parts of a TOML text.  Keys are bare or quoted, and
strings come in four forms: basic ones with escapes and literal ones without, each on one line or
between triple quotation marks over several lines.  A line end inside a string is always read as a
line feed.
-/

namespace Assortment.Toml

/-- A space or a tab. -/
def isBlank (character : Char) : Bool :=
  character == ' ' || character == '\t'

/-- Any number of blanks. -/
def blanks : Parser Unit := do
  let _ ← Parser.takeWhile isBlank
  return ()

/-- The end of a line, with or without a carriage return. -/
def newline : Parser Unit :=
  Parser.word "\n" <|> Parser.word "\r\n"

/-- Tabs and all characters from the blank on, the delete character aside. -/
def isText (character : Char) : Bool :=
  character == '\t' || (0x20 ≤ character.toNat && character.toNat != 0x7F)

/-- A comment up to the end of its line. -/
def comment : Parser Unit := do
  let _ ← Parser.char '#'
  let _ ← Parser.takeWhile isText
  return ()

/-- The end of a line, or of the whole text. -/
def lineEnd : Parser Unit :=
  newline <|> Parser.atEnd

/-- What may stand behind a statement on its line. -/
def trailing : Parser Unit := do
  blanks
  let _ ← Parser.optional comment
  lineEnd

/-- Any number of blanks, comments and line ends. -/
def filler : Parser Unit := do
  let _ ← Parser.many <|
    (do let _ ← Parser.takeWhile1 isBlank; return ()) <|> newline <|>
      (do comment; newline)
  return ()

/-- The character of an escape, behind its backslash. -/
def escaped : Parser Char := do
  let mark ← Parser.satisfy fun _ => true
  match mark with
  | 'b' => return '\x08'
  | 't' => return '\t'
  | 'n' => return '\n'
  | 'f' => return '\x0c'
  | 'r' => return '\r'
  | '"' => return '"'
  | '\\' => return '\\'
  | 'u' => do
    let code ← Json.hexDigits 4 0
    Parser.ofOption (Json.scalar? code)
  | 'U' => do
    let code ← Json.hexDigits 8 0
    Parser.ofOption (Json.scalar? code)
  | _ => Parser.failure

/-- An escaped character. -/
def escapeSequence : Parser (List Char) := do
  let _ ← Parser.char '\\'
  let character ← escaped
  return [character]

/-- A character that stands for itself in a basic string. -/
def basicCharacter : Parser (List Char) := do
  let character ← Parser.satisfy fun character =>
    isText character && character != '"' && character != '\\'
  return [character]

/-- A character that stands for itself in a literal string. -/
def literalCharacter : Parser (List Char) := do
  let character ← Parser.satisfy fun character => isText character && character != '\''
  return [character]

/-- A text between double quotes, on one line and with escapes. -/
def basicString : Parser String := do
  let _ ← Parser.char '"'
  let pieces ← Parser.many (basicCharacter <|> escapeSequence)
  let _ ← Parser.char '"'
  return String.ofList pieces.flatten

/-- A text between single quotes, on one line and without escapes. -/
def literalString : Parser String := do
  let _ ← Parser.char '\''
  let pieces ← Parser.many literalCharacter
  let _ ← Parser.char '\''
  return String.ofList pieces.flatten

/-- A line end inside a string. -/
def innerNewline : Parser (List Char) := do
  newline
  return ['\n']

/-- A backslash at the end of a line, which drops the blanks and line ends that follow. -/
def lineContinuation : Parser (List Char) := do
  let _ ← Parser.char '\\'
  blanks
  newline
  let _ ← Parser.many ((do let _ ← Parser.takeWhile1 isBlank; return ()) <|> newline)
  return []

/-- One or two quotation marks that another character follows. -/
def innerQuotes (mark : Char) : Parser (List Char) := do
  let first ← Parser.char mark
  let second ← Parser.optional (Parser.char mark)
  let next ← Parser.next?
  if next = none ∨ next = some mark then
    Parser.failure
  else
    return first :: second.toList

/-- The closing marks of a string over several lines, with up to two that belong to the string. -/
def closingQuotes (mark : Char) : Parser (List Char) := do
  let marks ← Parser.takeWhile (· == mark)
  if 3 ≤ marks.length ∧ marks.length ≤ 5 then
    return marks.drop 3
  else
    Parser.failure

/-- A string over several lines, whose first line end is dropped. -/
def longString (mark : Char) (piece : Parser (List Char)) : Parser String := do
  Parser.word (String.ofList [mark, mark, mark])
  let _ ← Parser.optional newline
  let pieces ← Parser.many (piece <|> innerNewline <|> innerQuotes mark)
  let last ← closingQuotes mark
  return String.ofList (pieces.flatten ++ last)

/-- A text between three double quotes, in which a line may be continued. -/
def longBasicString : Parser String :=
  longString '"' (basicCharacter <|> escapeSequence <|> lineContinuation)

/-- A text between three single quotes, in which nothing is escaped. -/
def longLiteralString : Parser String :=
  longString '\'' literalCharacter

/-- A string in any of its forms; three marks always open one over several lines. -/
def string : Parser String := do
  let marks ← Parser.optional
    (Parser.word "\"\"\"" <|> Parser.word "'''" : Parser Unit)
  if marks.isSome then
    Parser.failure
  else
    basicString <|> literalString

/-- A text in any of the four notations, of which the long ones begin like the others. -/
def anyString : Parser String :=
  longBasicString <|> longLiteralString <|> string

/-- A character of which keys without quotes are made. -/
def isBare (character : Char) : Bool :=
  character.isAlphanum || character == '-' || character == '_'

/-- One part of a dotted key, bare or between quotes. -/
def keyPart : Parser String :=
  (do return String.ofList (← Parser.takeWhile1 isBare)) <|> basicString <|> literalString

/-- How many parts a key has at most. -/
def greatestKeyLength : Nat := 79

/-- A key of one or more parts with points between them and blanks around each. -/
def key : Parser (List String) := do
  let parts ← Parser.separated1 (Parser.char '.') do
    blanks
    let part ← keyPart
    blanks
    return part
  if parts.length ≤ greatestKeyLength then
    return parts
  else
    Parser.failure

end Assortment.Toml
