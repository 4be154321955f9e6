import Assortment.Issue
import Assortment.Json.Printer

/-!
# The shape of a methods document

Before a value is read as a document its shape is checked against the JSON Schema of documents.
The check walks the value in document order and reports every place where it departs from the
schema: a value of the wrong type, a missing property, rules that are neither a line nor a list of
lines, and properties that are not declared.  Places are given as JSON pointers, in which a tilde
and a slash inside a key are escaped; the root is written as a slash.
-/

namespace Assortment

/-- A way in which a value departs from its schema. -/
inductive Fault where
  | wrongType (value : Value) (expected : String)
  | missing (property : String)
  | noAlternative (value : Value)
  | unexpected (properties : List String)

/-- A fault and the keys that lead to the value at fault. -/
structure Violation where
  place : List String
  fault : Fault

/-- The name that the schema has for objects. -/
def objectType : String := "object"

/-- The name that the schema has for texts. -/
def stringType : String := "string"

namespace Fault

/-- The message about a fault, with the value at fault written as JSON. -/
def message : Fault → String
  | wrongType value expected => Json.render value ++ " is not of type " ++ Json.quote expected
  | missing property => Json.quote property ++ " is a required property"
  | noAlternative value =>
    Json.render value ++ " is not valid under any of the schemas listed in the 'anyOf' keyword"
  | unexpected properties =>
    let listed := ", ".intercalate (properties.map fun property => "'" ++ property ++ "'")
    "Additional properties are not allowed (" ++ listed ++
      (if properties.length = 1 then " was" else " were") ++ " unexpected)"

end Fault

namespace Violation

/-- A key inside a pointer. -/
def escapeKey (key : String) : String :=
  String.ofList <| key.toList.flatMap fun character =>
    if character = '~' then ['~', '0'] else if character = '/' then ['~', '1'] else [character]

/-- The pointer to a place, a slash for the root. -/
def pointer (place : List String) : String :=
  if place.isEmpty then
    "/"
  else
    String.join (place.map fun key => "/" ++ escapeKey key)

/-- The violation as an issue, which is always an error. -/
def issue (violation : Violation) : Issue where
  severity := .error
  code := "schema_violation"
  path := pointer violation.place
  message := violation.fault.message

end Violation

namespace Document

/-- A value that has to be a string. -/
def stringViolations (place : List String) : Value → List Violation
  | .string _ => []
  | value => [⟨place, .wrongType value stringType⟩]

/-- Rules have to be a string or a list of strings. -/
def rulesViolations (place : List String) : Value → List Violation
  | .string _ => []
  | .array items =>
    if items.all fun item => item.string?.isSome then
      []
    else
      [⟨place, .noAlternative (.array items)⟩]
  | value => [⟨place, .noAlternative value⟩]

/-- A value that has to be an object, whose members are then checked one by one. -/
def objectViolations
    (member : List String → String → Value → List Violation)
    (place : List String)
    (value : Value) :
    List Violation :=
  match value.object? with
  | some members =>
    members.entries.flatMap fun entry => member (place ++ [entry.1]) entry.1 entry.2
  | none => [⟨place, .wrongType value objectType⟩]

/-- The members of an object that are not declared, in one violation. -/
def unexpectedViolations
    (declared : List String)
    (place : List String)
    (members : Row) :
    List Violation :=
  match members.keys.filter fun key => !declared.contains key with
  | [] => []
  | properties => [⟨place, .unexpected properties⟩]

/-- What is wrong with the shape of a member of a method; an undeclared one is reported with the
method. -/
def methodMemberViolations (place : List String) (key : String) (value : Value) :
    List Violation :=
  if key = "rules" then
    objectViolations (fun inner _ => rulesViolations inner) place value
  else if key = "defaults" then
    objectViolations (fun _ _ _ => []) place value
  else if key = "templates" then
    objectViolations (fun inner _ => stringViolations inner) place value
  else
    []

/-- A method has to be an object of rules, defaults and templates. -/
def methodViolations (place : List String) (value : Value) : List Violation :=
  objectViolations methodMemberViolations place value ++
    match value.object? with
    | some members => unexpectedViolations ["rules", "defaults", "templates"] place members
    | none => []

/-- What is wrong with the shape of a member of the document; an undeclared one is reported with the
document. -/
def memberViolations (place : List String) (key : String) (value : Value) : List Violation :=
  if key = "config_version" then
    stringViolations place value
  else if key = "methods" then
    objectViolations (fun inner _ => methodViolations inner) place value
  else
    []

/-- The properties that a document has to have and does not. -/
def missingViolations (members : Row) : List Violation :=
  (["config_version", "methods"].filter fun property => !members.contains property).map
    fun property => ⟨[], .missing property⟩

/-- All departures of a value from the schema of documents, in the order of the walk. -/
def violations (value : Value) : List Violation :=
  match value.object? with
  | some members =>
    missingViolations members ++ objectViolations memberViolations [] value ++
      unexpectedViolations ["config_version", "methods"] [] members
  | none => [⟨[], .wrongType value objectType⟩]

/-- The review of a value's shape, which holds errors only. -/
def reviewShape (value : Value) : Review :=
  .ofIssues ((violations value).map Violation.issue)

end Document

end Assortment
