import Assortment.Record

/-!
# Log settings

An application that runs methods may keep a log, either as plain lines or as JSON, of the events
that a filter lets through.  Only the settings are described here, with their defaults and their
form as values.
-/

namespace Assortment

/-- The form of the lines of a log. -/
inductive LogStyle where
  | plain
  | json
  deriving DecidableEq

/-- How a log is kept. -/
structure LogSettings where
  style : LogStyle := .plain
  filter : String := "info"
  deriving DecidableEq

namespace LogStyle

/-- The name under which a style is written. -/
def name : LogStyle → String
  | plain => "plain"
  | json => "json"

/-- The style of a name. -/
def ofName? (name : String) : Option LogStyle :=
  [plain, json].find? (·.name = name)

/-- Read a style from its name, or from an object with the name as its only key and null under
it. -/
def ofValue? (value : Value) : Option LogStyle :=
  match value.string?, value.object?.map OrderedMap.entries with
  | some name, _ => ofName? name
  | none, some [(name, .null)] => ofName? name
  | none, _ => none

end LogStyle

namespace LogSettings

/-- Read settings, of which none is needed. -/
def ofValue? (value : Value) : Option LogSettings :=
  match Record.members? .opened ["format", "filter"] value with
  | some [style, filter] => do
    let style ← Record.withDefault .plain LogStyle.ofValue? style
    let filter ← Record.withDefault "info" Value.string? filter
    return { style := style, filter := filter }
  | _ => none

/-- Settings are written with both members. -/
def toValue (settings : LogSettings) : Value :=
  .object [("format", .string settings.style.name), ("filter", .string settings.filter)]

end LogSettings

end Assortment
