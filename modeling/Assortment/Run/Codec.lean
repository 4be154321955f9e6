import Assortment.Record
import Assortment.Run.Options
import Assortment.Run.Report

/-!
# Options and reports as values

Options and reports are read from values and written as values.  Writing gives an object with all
members in their declared order, except that the field of a notice is left out when there is none.
Options may be given in part.
-/

namespace Assortment

namespace Options

/-- Read options, both of which may be left out. -/
def ofValue? (value : Value) : Option Options :=
  match Record.members? .opened ["drop_empty_optional", "max_variations"] value with
  | some [dropEmptyOptional, limit] => do
    let dropEmptyOptional ← Record.withDefault false Value.bool? dropEmptyOptional
    let limit ← Record.withDefault none (Record.nullable Value.word?) limit
    return { dropEmptyOptional := dropEmptyOptional, limit := limit }
  | _ => none

/-- Options are written with both members, and no limit as null. -/
def toValue (options : Options) : Value :=
  .object
    [("drop_empty_optional", .bool options.dropEmptyOptional),
      ("max_variations", options.limit.elim .null fun limit => .int limit.toNat)]

end Options

namespace Rejection

/-- Read a rejection, whose candidate may be any value, also null. -/
def ofValue? (value : Value) : Option Rejection :=
  match Record.members? .opened ["value", "rule"] value with
  | some [candidate, rule] => do
    let candidate ← Record.required some candidate
    let rule ← Record.required Value.string? rule
    return ⟨candidate, rule⟩
  | _ => none

/-- A rejection is written with its candidate as it is. -/
def toValue (rejection : Rejection) : Value :=
  .object [("value", rejection.value), ("rule", .string rejection.rule)]

end Rejection

namespace FieldSummary

/-- Read the summary of a field, of which every member is needed. -/
def ofValue? (value : Value) : Option FieldSummary :=
  match
    Record.members? .opened
      ["field", "required", "defaulted", "candidates", "accepted", "rejections"] value
  with
  | some [field, required, defaulted, candidates, accepted, rejections] => do
    let field ← Record.required Value.string? field
    let required ← Record.required Value.bool? required
    let defaulted ← Record.required Value.bool? defaulted
    let candidates ← Record.required Value.nat? candidates
    let accepted ← Record.required Value.nat? accepted
    let rejections ← Record.required (Record.listOf Rejection.ofValue?) rejections
    return ⟨field, required, defaulted, candidates, accepted, rejections⟩
  | _ => none

/-- The summary of a field is written with all its rejections, in order. -/
def toValue (summary : FieldSummary) : Value :=
  .object
    [("field", .string summary.field),
      ("required", .bool summary.required),
      ("defaulted", .bool summary.defaulted),
      ("candidates", .int summary.candidates),
      ("accepted", .int summary.accepted),
      ("rejections", .array (summary.rejections.map Rejection.toValue))]

end FieldSummary

namespace Notice

/-- Read a notice, which need not be about a field. -/
def ofValue? (value : Value) : Option Notice :=
  match Record.members? .opened ["code", "message", "field"] value with
  | some [code, message, field] => do
    let code ← Record.required Value.string? code
    let message ← Record.required Value.string? message
    let field ← Record.withDefault none (Record.nullable Value.string?) field
    return ⟨code, message, field⟩
  | _ => none

/-- A notice is written without the member for the field if it is about none. -/
def toValue (notice : Notice) : Value :=
  .object <|
    [("code", .string notice.code), ("message", .string notice.message)] ++
      notice.field.toList.map fun field => ("field", .string field)

end Notice

namespace RunReport

/-- Read a report, of which every member is needed. -/
def ofValue? (value : Value) : Option RunReport :=
  match
    Record.members? .opened
      ["run_id", "method", "groups", "fields", "variations", "duration_ms", "warnings_by_code",
        "warnings"] value
  with
  | some [runId, method, groups, fields, variations, duration, noticeCounts, notices] => do
    let runId ← Record.required Value.string? runId
    let method ← Record.required Value.string? method
    let groups ← Record.required (Record.listOf Value.string?) groups
    let fields ← Record.required (Record.listOf FieldSummary.ofValue?) fields
    let variations ← Record.required Value.nat? variations
    let duration ← Record.required Value.nat? duration
    let noticeCounts ← Record.required (Record.mapOf Value.nat?) noticeCounts
    let notices ← Record.required (Record.listOf Notice.ofValue?) notices
    return ⟨runId, method, groups, fields, variations, duration, .ofList noticeCounts, notices⟩
  | _ => none

/-- A report is written with the counts of its notices in ascending order of the codes. -/
def toValue (report : RunReport) : Value :=
  .object
    [("run_id", .string report.runId),
      ("method", .string report.method),
      ("groups", .array (report.groups.map .string)),
      ("fields", .array (report.fields.map FieldSummary.toValue)),
      ("variations", .int report.variations),
      ("duration_ms", .int report.duration),
      ("warnings_by_code",
        .object (report.noticeCounts.mapValues fun _ count => .int count).entries),
      ("warnings", .array (report.notices.map Notice.toValue))]

end RunReport

end Assortment
