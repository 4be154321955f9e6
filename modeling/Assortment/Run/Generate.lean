import Assortment.Catalogue.Basic
import Assortment.Odometer
import Assortment.Run.Options
import Assortment.Run.Report
import Assortment.Template.Expansion

/-!
# Runs

A run follows a method.  The defaults of the method stand in for fields that are absent or null.
Every candidate of every field is checked against the rules of the field, and those that pass form
the choices of the run.  The combinations of the choices are the variations, into which the
templates of the method write their texts.

A run fails when its method is not registered, when a required field is absent or has no valid
candidate, and when there would be more variations than the limit allows.  Required fields that
are absent are found first, in the order of their names; then the fields are checked in the order
of the input, up to the first required one without a valid candidate.
-/

namespace Assortment

/-- The variations of a run with its report. -/
structure Generated where
  variations : List Row
  report : RunReport
  deriving DecidableEq

/-- Why a run produced nothing. -/
inductive Failure where
  | unknownMethod (method : String)
  | requiredField (field : String) (report : RunReport)
  | tooManyVariations (requested : Nat) (limit : UInt64) (report : RunReport)
  deriving DecidableEq

namespace Failure

/-- The report of a run that got as far as its method. -/
def report? : Failure → Option RunReport
  | unknownMethod _ => none
  | requiredField _ report => some report
  | tooManyVariations _ _ report => some report

/-- What is told about a failure. -/
def message : Failure → String
  | unknownMethod method => "unknown method '" ++ method ++ "'"
  | requiredField field _ => "required field '" ++ field ++ "' has no valid candidates"
  | tooManyVariations requested limit _ =>
    requested.repr ++ " variations exceed the limit of " ++ limit.toNat.repr

end Failure

namespace Notice

/-- A required field is not in the input and has no default. -/
def requiredMissing (field : String) : Notice where
  code := "required_field_missing"
  message := "required field '" ++ field ++ "' is absent and has no default"
  field := some field

/-- A required field has candidates, or an empty list of them, and none is valid. -/
def requiredEmpty (field : String) : Notice where
  code := "required_field_empty"
  message := "required field '" ++ field ++ "' has no valid candidates"
  field := some field

/-- No candidate of an optional field is valid, with what follows from that. -/
def optionalEmpty (dropped : Bool) (field : String) : Notice where
  code := "optional_field_empty"
  message :=
    "optional field '" ++ field ++ "' has no valid candidates; " ++
      (if dropped then "field dropped from the matrix" else "no variations will be produced")
  field := some field

end Notice

namespace RuleList

/-- The candidates of a value that pass the rules, in order. -/
def accepted (rules : RuleList) (value : Value) : List Value :=
  value.candidates.filter rules.accepts

/-- The candidates of a value that fail the rules, in order, with the first rule that each
fails. -/
def rejections (rules : RuleList) (value : Value) : List Rejection :=
  value.candidates.filterMap fun candidate =>
    (rules.firstFailure? candidate).map fun rule => ⟨candidate, rule.text⟩

end RuleList

namespace Method

/-- Whether the default of a field stands in for what the input holds. -/
def isDefaulted (method : Method) (data : Row) (field : String) : Bool :=
  method.defaults.contains field && ((data.get? field).getD .null).isNull

/-- The input with defaults in place of nulls, and behind it those of fields that are absent. -/
def withDefaults (method : Method) (data : Row) : Row :=
  method.defaults.entries.foldl
    (fun merged entry =>
      if ((merged.get? entry.1).getD .null).isNull then
        merged.insert entry.1 entry.2
      else
        merged)
    data

/-- How the candidates of a field fare against its rules. -/
def summary (method : Method) (defaulted : Bool) (field : String) (value : Value) :
    FieldSummary where
  field := field
  required := (method.rulesFor field).isRequired
  defaulted := defaulted
  candidates := value.candidates.length
  accepted := ((method.rulesFor field).accepted value).length
  rejections := (method.rulesFor field).rejections value

end Method

/-- What checking a list of fields gives. -/
structure Screening where
  summaries : List FieldSummary
  notices : List Notice
  /-- The accepted candidates of the fields that enter the product. -/
  kept : List (String × List Value)
  /-- The required field without a valid candidate at which the check stopped. -/
  stoppedAt : Option String

namespace Screening

/-- Check fields in order, up to a required one without a valid candidate. -/
def ofFields
    (method : Method)
    (options : Options)
    (defaulted : String → Bool) :
    List (String × Value) → Screening
  | [] => ⟨[], [], [], none⟩
  | (field, value) :: rest =>
    let summary := method.summary (defaulted field) field value
    let accepted := (method.rulesFor field).accepted value
    if accepted.isEmpty && summary.required then
      ⟨[summary], [.requiredEmpty field], [], some field⟩
    else
      let later := ofFields method options defaulted rest
      if accepted.isEmpty then
        { summaries := summary :: later.summaries
          notices := .optionalEmpty options.dropEmptyOptional field :: later.notices
          kept := if options.dropEmptyOptional then later.kept else (field, []) :: later.kept
          stoppedAt := later.stoppedAt }
      else
        { summaries := summary :: later.summaries
          notices := later.notices
          kept := (field, accepted) :: later.kept
          stoppedAt := later.stoppedAt }

end Screening

namespace RunReport

/-- Add what a check of fields gave. -/
def recordScreening (report : RunReport) (screening : Screening) : RunReport :=
  screening.notices.foldl recordNotice (screening.summaries.foldl recordField report)

end RunReport

/-- The limit that a number of variations exceeds, if there is one. -/
def Options.refuses (options : Options) (requested : Nat) : Option UInt64 :=
  options.limit.filter fun limit => limit.toNat < requested

/-- Follow a method on an input for the given groups. -/
def Method.generate
    (method : Method)
    (options : Options)
    (name : String)
    (data : Row)
    (groups : List String) :
    Except Failure Generated :=
  let started := RunReport.start "" name groups
  let merged := method.withDefaults data
  match method.requiredFields.find? fun field => !merged.contains field with
  | some field =>
    .error <| .requiredField field <|
      (started.recordField (.blank field true false)).recordNotice (.requiredMissing field)
  | none =>
    let screening :=
      Screening.ofFields method options (method.isDefaulted data) merged.entries
    let report := started.recordScreening screening
    match screening.stoppedAt with
    | some field => .error (.requiredField field report)
    | none =>
      let choices := Choices.ofList screening.kept
      match options.refuses choices.combinationCount with
      | some limit =>
        .error (.tooManyVariations choices.combinationCount limit report)
      | none =>
        let variations :=
          choices.combinations.map (Template.applyAll method.templates.entries groups)
        .ok ⟨variations, { report with variations := variations.length }⟩

/-- Run a registered method on an input for the given groups. -/
def Catalogue.generate
    (catalogue : Catalogue)
    (options : Options)
    (name : String)
    (data : Row)
    (groups : List String) :
    Except Failure Generated :=
  match catalogue.get? name with
  | none => .error (.unknownMethod name)
  | some method => method.generate options name data groups

end Assortment
