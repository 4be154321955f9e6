/-!
# Issues

An issue is one finding about a methods document: how severe it is, a code for its kind, the path
of the place it is about, a message, and sometimes a hint at a remedy.  A `Review` keeps the
issues of a document apart by severity, each kind in the order in which it was found; errors block
loading and warnings do not.
-/

namespace Assortment

/-- Whether an issue blocks loading. -/
inductive Severity where
  | error
  | warning
  deriving DecidableEq

/-- One finding about a document. -/
structure Issue where
  severity : Severity
  code : String
  path : String
  message : String
  hint : Option String := none
  deriving DecidableEq

/-- The issues of a document by severity. -/
structure Review where
  errors : List Issue
  warnings : List Issue
  deriving DecidableEq

namespace Review

/-- A review without any issue. -/
def empty : Review := ⟨[], []⟩

/-- Add an issue behind those of its severity. -/
def record (review : Review) (issue : Issue) : Review :=
  match issue.severity with
  | .error => { review with errors := review.errors ++ [issue] }
  | .warning => { review with warnings := review.warnings ++ [issue] }

/-- A review of issues, which are kept apart by their severity and in order. -/
def ofIssues (issues : List Issue) : Review where
  errors := issues.filter (·.severity = .error)
  warnings := issues.filter (·.severity = .warning)

/-- Whether nothing blocks loading. -/
def isOk (review : Review) : Bool :=
  review.errors.isEmpty

/-- The issues of either severity that carry a code, errors first. -/
def withCode (review : Review) (code : String) : List Issue :=
  (review.errors ++ review.warnings).filter (·.code = code)

/-- Recording the issues one after the other gives the review of their list. -/
theorem foldl_record_empty
    (issues : List Issue) :
    issues.foldl record empty = ofIssues issues := by
  have general :
      ∀ review : Review,
        issues.foldl record review =
          ⟨review.errors ++ (ofIssues issues).errors,
            review.warnings ++ (ofIssues issues).warnings⟩ := by
    induction issues with
    | nil =>
      intro review
      simp [ofIssues]
    | cons issue rest inductionHypothesis =>
      intro review
      rw [List.foldl_cons, inductionHypothesis]
      cases severe : issue.severity <;> simp [record, ofIssues, severe]
  simpa [empty] using general empty

end Review

end Assortment
