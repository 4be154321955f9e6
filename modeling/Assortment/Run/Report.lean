import Assortment.NameTable
import Assortment.Value.Basic

/-!
# Reports of runs

The report of a run tells for every field that was checked how many candidates it had, how many
were accepted and why the others were rejected.  It also carries notices about fields that were
left without a candidate, and counts them by code.

A report has a place for an identification of the run and for its duration.  A run leaves both
blank; they are stamped by whoever starts it and watches the clock.
-/

namespace Assortment

/-- A candidate that was dropped, and the text of the first rule that it fails. -/
structure Rejection where
  value : Value
  rule : String
  deriving DecidableEq

/-- How the candidates of one field fared. -/
structure FieldSummary where
  field : String
  required : Bool
  /-- Whether the candidates came from the defaults of the method. -/
  defaulted : Bool
  candidates : Nat
  accepted : Nat
  rejections : List Rejection
  deriving DecidableEq

/-- The summary of a field whose candidates have not been looked at. -/
def FieldSummary.blank (field : String) (required defaulted : Bool) : FieldSummary :=
  ⟨field, required, defaulted, 0, 0, []⟩

/-- A remark about a run, perhaps about one of its fields. -/
structure Notice where
  code : String
  message : String
  field : Option String
  deriving DecidableEq

/-- What is known about a run. -/
structure RunReport where
  runId : String
  method : String
  groups : List String
  fields : List FieldSummary
  variations : Nat
  duration : Nat
  noticeCounts : NameTable Nat
  notices : List Notice
  deriving DecidableEq

namespace RunReport

/-- The report of a run that has only been started. -/
def start (runId method : String) (groups : List String) : RunReport where
  runId := runId
  method := method
  groups := groups
  fields := []
  variations := 0
  duration := 0
  noticeCounts := .empty
  notices := []

/-- The summary of a field, if the report has one. -/
def field? (report : RunReport) (name : String) : Option FieldSummary :=
  report.fields.find? (·.field = name)

/-- Add the summary of a field behind the others. -/
def recordField (report : RunReport) (summary : FieldSummary) : RunReport :=
  { report with fields := report.fields ++ [summary] }

/-- Add a notice and count it under its code. -/
def recordNotice (report : RunReport) (notice : Notice) : RunReport :=
  { report with
    noticeCounts :=
      report.noticeCounts.insert notice.code
        ((report.noticeCounts.get? notice.code).getD 0 + 1)
    notices := report.notices ++ [notice] }

end RunReport

end Assortment
