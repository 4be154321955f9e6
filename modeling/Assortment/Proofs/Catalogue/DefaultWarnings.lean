import Assortment.Proofs.Catalogue.Loading
import Assortment.Proofs.Document.Defaults
import Assortment.Proofs.Run.Summaries
import Assortment.Proofs.Session.Refinement

/-!
# Warnings about defaults come true

Defaults are checked twice.  When a document is reviewed, each candidate of a default is checked
against the rules of the field as they are written; when a run follows the method, the default
stands in for what the input lacks, and the candidates of the merged input are checked against the
rules that the method was resolved into.

The two checks agree.  Wherever a report has a summary of a defaulted field, its rejections are the
warnings that were raised about the default, one for one and in order.
-/

namespace Assortment

/-- The warning that foretells a rejection of a default. -/
def Rejection.warning (method field : String) (rejection : Rejection) : Issue where
  severity := .warning
  code := "default_fails_rules"
  path := "/methods/" ++ method ++ "/defaults/" ++ field
  message := "default " ++ Json.render rejection.value ++ " fails rule '" ++ rejection.rule ++ "'"

namespace Finding

/-- A finding and a rejection that are about the same candidate and the same rule. -/
inductive Foretells (method field : String) : Finding → Rejection → Prop
  | intro (candidate : Value) (rule : Rule) :
      Foretells method field (.failingDefault method field candidate rule) ⟨candidate, rule.text⟩

variable {method field : String}

theorem Foretells.issue_eq
    {finding : Finding}
    {rejection : Rejection}
    (foretells : Foretells method field finding rejection) :
    finding.issue = rejection.warning method field := by
  cases foretells with
  | intro candidate rule =>
    have place :
        path (.failingDefault method field candidate rule) =
          "/methods/" ++ method ++ "/defaults/" ++ field := by
      have methods : "/methods/" = "" ++ ("/" ++ ("methods" ++ "/")) := by decide
      have defaults : "/defaults/" = "/" ++ ("defaults" ++ "/") := by decide
      rw [methods, defaults]
      simp only [path, Finding.place, String.join, List.map_cons, List.map_nil, List.foldl_cons,
        List.foldl_nil, String.append_assoc]
    rw [issue, Rejection.warning, place]

/-- Findings that foretell rejections, one for one, are shown as their warnings in order. -/
theorem map_issue_of_foretells
    {findings : List Finding}
    {rejections : List Rejection}
    (foretold : List.Forall₂ (Foretells method field) findings rejections) :
    findings.map issue = rejections.map (Rejection.warning method field) := by
  induction foretold with
  | nil => rfl
  | cons first _ inductionHypothesis =>
    rw [List.map_cons, List.map_cons, first.issue_eq, inductionHypothesis]

end Finding

/-- The findings about the candidates of a default foretell their rejections, one for one. -/
theorem RuleList.forall₂_foretells_filterMap
    (name field : String)
    (rules : RuleList)
    (candidates : List Value) :
    List.Forall₂ (Finding.Foretells name field)
      (candidates.filterMap fun candidate =>
        (rules.firstFailure? candidate).map (Finding.failingDefault name field candidate))
      (candidates.filterMap fun candidate =>
        (rules.firstFailure? candidate).map fun rule => ⟨candidate, rule.text⟩) := by
  induction candidates with
  | nil => exact .nil
  | cons candidate rest inductionHypothesis =>
    cases failed : rules.firstFailure? candidate with
    | none => simpa [failed] using inductionHypothesis
    | some rule => simpa [failed] using ⟨.intro candidate rule, inductionHypothesis⟩

/-- The written rules of a field find fault with what the resolved ones reject. -/
theorem WrittenMethod.forall₂_foretells_rejections
    (name field : String)
    (method : WrittenMethod)
    (value : Value) :
    List.Forall₂ (Finding.Foretells name field)
      (method.defaultFindingsOf name field value)
      ((method.resolved.rulesFor field).rejections value) := by
  rw [defaultFindingsOf, Method.rulesFor, Method.rulesFor?, resolved, NameTable.get?_mapValues]
  cases method.rules.get? field with
  | none =>
    have accepted : RuleList.empty.rejections value = [] := by
      simp [RuleList.rejections, RuleList.firstFailure?, RuleList.empty]
    rw [Option.map_none, Option.getD_none, accepted]
    exact .nil
  | some written => exact RuleList.forall₂_foretells_filterMap name field _ _

theorem Session.Request.summarizes_of_report?
    {request : Request}
    {catalogue : Catalogue}
    {options : Options}
    {report : RunReport}
    (reported : request.report? catalogue options = some report) :
    ∃ method, catalogue.get? request.method = some method ∧
      method.Summarizes request.data report.fields := by
  have reaches := request.isSome_report? catalogue options
  rw [reported, isReaching] at reaches
  rcases Option.isSome_iff_exists.1 reaches.symm with ⟨method, registered⟩
  refine ⟨method, registered, ?_⟩
  have concluded :=
    method.concludes_generate options request.method request.data request.groups
  rw [report?, outcome, Catalogue.generate_of_registered registered] at reported
  cases result : method.generate options request.method request.data request.groups with
  | ok generated =>
    rw [result] at concluded reported
    cases reported
    exact concluded.summarizes_of_ok
  | error failure =>
    rw [result] at concluded reported
    rw [Outcome.report?_error] at reported
    exact concluded.summarizes_of_error reported

/-- What a document and the warnings of its review foretell about the default of a field. -/
structure Document.Foretells
    (document : Document)
    (warnings : List Issue)
    (method field : String)
    (rejections : List Rejection) :
    Prop where
  found :
    List.Forall₂ (Finding.Foretells method field)
      (document.findings.filter (Finding.isDefaultOf method field)) rejections
  warned :
    document.defaultWarnings method field = rejections.map (Rejection.warning method field)
  raised :
    (warnings.filter fun issue => issue.code = "default_fails_rules") =
      document.methods.entries.flatMap fun other =>
        other.2.defaults.entries.flatMap fun default =>
          document.defaultWarnings other.1 default.1

namespace Catalogue

/--
In every report of a run of a loaded catalogue, the rejections of a defaulted field are those that
the document foretells.
-/
theorem rejections_foretold
    {value : Value}
    {catalogue : Catalogue}
    {warnings : List Issue}
    {options : Options}
    {request : Session.Request}
    {report : RunReport}
    {summary : FieldSummary}
    (loaded : load value = .ok (catalogue, warnings))
    (reported : request.report? catalogue options = some report)
    (listed : summary ∈ report.fields)
    (defaulted : summary.defaulted = true) :
    ∃ document, Document.ofValue? value = some document ∧
      document.Foretells warnings request.method summary.field summary.rejections := by
  have ended := loadsAs_load value
  rw [loaded] at ended
  cases ended with
  | @loaded document _ shaped read sound resolved =>
    rcases request.summarizes_of_report? reported with ⟨method, registered, summarizes⟩
    rcases summarizes.eq_summary_of_defaulted listed defaulted with ⟨default, declared, same⟩
    rw [get?_of_ofDocument resolved] at registered
    rcases Option.map_eq_some_iff.1 registered with ⟨written, held, rfl⟩
    have inDocument := NameTable.get?_eq_some_iff.1 held
    have inMethod := OrderedMap.get?_eq_some_iff.1 declared
    -- One side is about the written rules of the field and the other about the resolved ones, but
    -- both are about the candidates of the same default.
    have found :
        List.Forall₂ (Finding.Foretells request.method summary.field)
          (document.findings.filter (Finding.isDefaultOf request.method summary.field))
          summary.rejections := by
      rw [Document.filter_isDefaultOf_findings inDocument inMethod, same]
      exact written.forall₂_foretells_rejections request.method summary.field default
    exact ⟨document, read, found, Finding.map_issue_of_foretells found,
      document.filter_warnings_review⟩

/-- A document with a default of which two candidates fail different rules. -/
def crateDocument : Value :=
  .object
    [("config_version", .string "0.1"),
      ("methods", .object
        [("crate", .object
          [("rules", .object [("load", .string "numeric|min[5]")]),
            ("defaults", .object
              [("note", .null), ("load", .array [.string "x", .int 7, .int 3])])])])]

/-- A run that leaves the field with the default null. -/
def crateRequest : Session.Request where
  method := "crate"
  data := OrderedMap.ofList [("load", .null)]
  groups := ["g"]

/-- The summary of the field in which two of the three default candidates fail. -/
def crateSummary : FieldSummary where
  field := "load"
  required := false
  defaulted := true
  candidates := 3
  accepted := 1
  rejections := [⟨.string "x", "numeric"⟩, ⟨.int 3, "min[5]"⟩]

/-- A default with failing candidates: the loader's warnings foretell the rejections of a run. -/
theorem crate_rejections_foretold :
    ∃ catalogue warnings report,
      load crateDocument = .ok (catalogue, warnings) ∧
        crateRequest.report? catalogue {} = some report ∧
        crateSummary ∈ report.fields ∧
        crateSummary.defaulted = true ∧
        ∃ document, Document.ofValue? crateDocument = some document ∧
          document.Foretells warnings "crate" "load" crateSummary.rejections := by
  have ran :
      ((load crateDocument).toOption.bind fun loaded =>
        (crateRequest.report? loaded.1 {}).bind fun report => report.field? "load") =
        some crateSummary := by
    decide +kernel
  rcases Option.bind_eq_some_iff.1 ran with ⟨⟨catalogue, warnings⟩, succeeded, met⟩
  rcases Option.bind_eq_some_iff.1 met with ⟨report, reported, found⟩
  have listed := List.mem_of_find?_eq_some found
  cases loaded : load crateDocument with
  | error review =>
    rw [loaded] at succeeded
    cases succeeded
  | ok result =>
    rw [loaded] at succeeded
    cases succeeded
    exact ⟨catalogue, warnings, report, rfl, reported, listed, rfl,
      rejections_foretold loaded reported listed rfl⟩

end Catalogue

end Assortment
