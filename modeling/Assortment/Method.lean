import Assortment.Document.Basic
import Assortment.LoadError
import Assortment.Value.Same

/-!
# Methods

A method is what a run follows: the rules of its fields, the values that stand in for fields
without one, and the templates that produce further fields, in the order in which they are
expanded.  It is built piece by piece, or resolved from its written form, which fails when a
template is not text.
-/

namespace Assortment

/-- Rules by field, defaults and templates by field, in the order of declaration. -/
structure Method where
  rules : NameTable RuleList
  defaults : OrderedMap Value
  templates : OrderedMap String
  deriving DecidableEq

namespace Method

/-- A method without rules, defaults and templates. -/
def empty : Method := ⟨.empty, .empty, .empty⟩

/-- Give a field the rules of a line, in place of those that it had. -/
def withRules (method : Method) (field line : String) : Method :=
  { method with rules := method.rules.insert field (RuleList.parse line) }

/-- Give a field a default, in place of the one that it had. -/
def withDefault (method : Method) (field : String) (value : Value) : Method :=
  { method with defaults := method.defaults.insert field value }

/-- Append a template, or replace the text of the one that produces the field. -/
def withTemplate (method : Method) (field text : String) : Method :=
  { method with templates := method.templates.insert field text }

/-- The rules of a field, if it is ruled. -/
def rulesFor? (method : Method) (field : String) : Option RuleList :=
  method.rules.get? field

/-- The rules of a field, none when it is not ruled. -/
def rulesFor (method : Method) (field : String) : RuleList :=
  (method.rulesFor? field).getD .empty

/-- The fields that are required, by name. -/
def requiredFields (method : Method) : List String :=
  (method.rules.entries.filter fun entry => entry.2.isRequired).map Prod.fst

/-- Resolve templates in order, starting from a method that holds the earlier ones. -/
def addTemplates (name : String) : Method → List (String × Value) → Except LoadError Method
  | method, [] => .ok method
  | method, (field, template) :: rest =>
    match template with
    | .string text => addTemplates name (method.withTemplate field text) rest
    | _ => .error (.templateNotText name field)

/-- Resolve a method from its written form. -/
def ofWritten (name : String) (written : WrittenMethod) : Except LoadError Method :=
  addTemplates name
    { rules := written.rules.mapValues fun _ rules => rules.ruleList
      defaults := written.defaults
      templates := .empty }
    written.templates.entries

/-- Whether two methods have the same rules, defaults of the same content, and the same templates
in the same order. -/
def same (left right : Method) : Bool :=
  decide (left.rules = right.rules) && Value.sameRow left.defaults right.defaults &&
    decide (left.templates = right.templates)

end Method

end Assortment
