import Assortment.Document.Basic
import Assortment.Record

/-!
# Documents as values

A document is read from a value and written as one.  Reading accepts every record in both of its
forms, fills in the parts of a method that are left out, and refuses members that are not
declared.  Writing gives objects with all members in their declared order.
-/

namespace Assortment

namespace WrittenRules

/-- Read rules, which are given as one line or as a list of segments. -/
def ofValue? : Value → Option WrittenRules
  | .string text => some (line text)
  | .array items => (Record.readAll Value.string? items).map segments
  | _ => none

/-- Rules are written as they were given, a line as text and segments as a list. -/
def toValue : WrittenRules → Value
  | line text => .string text
  | segments texts => .array (texts.map .string)

end WrittenRules

namespace WrittenMethod

/-- Read a method, all of whose members may be left out and which may have no others. -/
def ofValue? (value : Value) : Option WrittenMethod :=
  match Record.members? .closed ["rules", "defaults", "templates"] value with
  | some [rules, defaults, templates] => do
    let rules ← Record.withDefault [] (Record.mapOf WrittenRules.ofValue?) rules
    let defaults ← Record.withDefault .empty Value.object? defaults
    let templates ← Record.withDefault .empty Value.object? templates
    return ⟨.ofList rules, defaults, templates⟩
  | _ => none

/-- A method is written with all its members, also the empty ones. -/
def toValue (method : WrittenMethod) : Value :=
  .object
    [("rules", .object (method.rules.mapValues fun _ rules => rules.toValue).entries),
      ("defaults", .object method.defaults.entries),
      ("templates", .object method.templates.entries)]

end WrittenMethod

namespace Document

/-- Read a document, which needs a version and methods and may have no other members. -/
def ofValue? (value : Value) : Option Document :=
  match Record.members? .closed ["config_version", "methods"] value with
  | some [version, methods] => do
    let version ← Record.required Value.string? version
    let methods ← Record.required (Record.mapOf WrittenMethod.ofValue?) methods
    return ⟨version, .ofList methods⟩
  | _ => none

/-- A document is written with its methods in ascending order of their names. -/
def toValue (document : Document) : Value :=
  .object
    [("config_version", .string document.version),
      ("methods", .object (document.methods.mapValues fun _ method => method.toValue).entries)]

end Document

end Assortment
