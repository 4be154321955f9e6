import Assortment.Toml.Scalar
import Assortment.Toml.Tree

/-!
# Reading TOML

A TOML text is a sequence of lines: assignments to the root, then sections with a header each.
Values may be lists over several lines and tables on one line, at most 79 of them inside one
another.  The statements are gathered first and then build the tree of tables, whose value is the
value of the text.
-/

namespace Assortment.Toml

/-- Split the last part off a key. -/
def splitKey (parts : List String) : Option (List String × String) :=
  parts.getLast?.map fun last => (parts.dropLast, last)

/-- A key, an equals sign and a value that is read by a parser. -/
def assignment (value : Parser Value) : Parser Assignment := do
  let parts ← key
  let (path, last) ← Parser.ofOption (splitKey parts)
  let _ ← Parser.char '='
  blanks
  let assigned ← value
  return ⟨path, last, assigned⟩

/-- A list over any number of lines, perhaps with a comma behind its last item. -/
def arrayOf (item : Parser Value) : Parser Value := do
  let _ ← Parser.char '['
  let items ← Parser.optional do
    let items ← Parser.separated1 (Parser.char ',') do
      filler
      let value ← item
      filler
      return value
    let _ ← Parser.optional (Parser.char ',')
    return items
  filler
  let _ ← Parser.char ']'
  return .array (items.getD [])

/-- A table on one line. -/
def inlineTable (item : Parser Value) : Parser Value := do
  let _ ← Parser.char '{'
  let assignments ← Parser.optional <| Parser.separated1 (Parser.char ',') do
    let assigned ← assignment item
    blanks
    return assigned
  blanks
  let _ ← Parser.char '}'
  let entries ← Parser.ofOption (assignAll (assignments.getD []) [])
  return .object (membersOf entries)

/-- A value with at most a number of lists and tables inside one another. -/
def value : Nat → Parser Value
  | 0 => scalar
  | depth + 1 => arrayOf (value depth) <|> inlineTable (value depth) <|> scalar

/-- How many lists and tables on one line may stand inside one another. -/
def greatestDepth : Nat := 79

/-- Lines with nothing on them but blanks and comments. -/
def emptyLines : Parser Unit := do
  let _ ← Parser.many <|
    (do let _ ← Parser.takeWhile1 isBlank; return ()) <|> newline <|>
      (do comment; lineEnd)
  return ()

/-- An assignment on a line of its own, with the empty lines behind it. -/
def statement : Parser Assignment := do
  let assigned ← assignment (value greatestDepth)
  trailing
  emptyLines
  return assigned

/-- The line that opens a table or a further element of a list of tables. -/
def header : Parser Header :=
  (do
    Parser.word "[["
    let parts ← key
    let (path, last) ← Parser.ofOption (splitKey parts)
    Parser.word "]]"
    trailing
    emptyLines
    return .element path last) <|>
  (do
    let _ ← Parser.char '['
    let parts ← key
    let (path, last) ← Parser.ofOption (splitKey parts)
    let _ ← Parser.char ']'
    trailing
    emptyLines
    return .table path last)

/-- A header with the assignments that follow it. -/
def tableSection : Parser Section := do
  let declared ← header
  let assignments ← Parser.many statement
  return ⟨declared, assignments⟩

/-- A whole text, perhaps behind a byte order mark. -/
def document : Parser (List Assignment × List Section) := do
  let _ ← Parser.optional (Parser.char '\uFEFF')
  emptyLines
  let assignments ← Parser.many statement
  let sections ← Parser.many tableSection
  return (assignments, sections)

/-- The value of a text: its assignments are made first, then its sections open their tables in
order. -/
def parse? (text : String) : Option Value := do
  let (assignments, sections) ← Parser.run document text.toList
  let root ← assignAll assignments []
  let entries ← applyAll sections root
  return .object (membersOf entries)

end Assortment.Toml
