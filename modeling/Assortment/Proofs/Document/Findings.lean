import Assortment.Document.Findings
import Assortment.Proofs.NameTable

/-!
# Which findings block loading

Of all that can be found in a document only two things are errors, a version that is not supported
and a method name without a character that is not blank.  Everything else is a warning.  So the
review of a document is free of errors exactly when its version and its names are right, whatever
its rules, defaults and templates say.
-/

namespace Assortment

namespace Finding

/-- Whether the finding is an error. -/
def isBlocking : Finding → Bool
  | unsupportedVersion _ => true
  | blankName _ => true
  | _ => false

/-- A finding is shown as an error if it blocks, and as a warning otherwise. -/
theorem severity_issue
    (finding : Finding) :
    finding.issue.severity = if finding.isBlocking then .error else .warning := by
  cases finding with
  | faultyRule method field fault => cases fault <;> rfl
  | _ => rfl

/-- The codes under which findings are reported. -/
def codes : List String :=
  ["config_version_mismatch", "methods_empty", "method_name_empty", "unknown_rule",
    "rule_param_missing", "rule_param_not_numeric", "default_fails_rules", "template_empty",
    "template_forward_reference"]

theorem code_issue_mem
    (finding : Finding) :
    finding.issue.code ∈ codes := by
  cases finding with
  | faultyRule method field fault => cases fault <;> simp [issue, ruleIssue, codes]
  | _ => simp [issue, codes]

end Finding

namespace WrittenMethod

variable
    {name : String}
    {method : WrittenMethod}
    {finding : Finding}

theorem eq_faultyRule_of_mem
    (found : finding ∈ method.ruleFindings name) :
    ∃ field fault, finding = .faultyRule name field fault := by
  simp only [ruleFindings, List.mem_flatMap, List.mem_map] at found
  rcases found with ⟨entry, _, fault, _, rfl⟩
  exact ⟨entry.1, fault, rfl⟩

/-- The findings about the default of one field. -/
def defaultFindingsOf
    (name : String)
    (method : WrittenMethod)
    (field : String)
    (value : Value) :
    List Finding :=
  match method.rules.get? field with
  | none => []
  | some written =>
    value.candidates.filterMap fun candidate =>
      (written.ruleList.firstFailure? candidate).map (Finding.failingDefault name field candidate)

theorem defaultFindings_eq
    (name : String)
    (method : WrittenMethod) :
    method.defaultFindings name =
      method.defaults.entries.flatMap fun entry =>
        method.defaultFindingsOf name entry.1 entry.2 := rfl

theorem eq_failingDefault_of_mem
    {field : String}
    {value : Value}
    (found : finding ∈ method.defaultFindingsOf name field value) :
    ∃ candidate rule, finding = .failingDefault name field candidate rule := by
  rw [defaultFindingsOf] at found
  split at found
  · cases found
  · rcases List.mem_filterMap.1 found with ⟨candidate, _, failed⟩
    rcases Option.map_eq_some_iff.1 failed with ⟨rule, _, rfl⟩
    exact ⟨candidate, rule, rfl⟩

theorem eq_of_mem_templateFindingsOf
    {templates : List (String × Value)}
    (found : finding ∈ templateFindingsOf name templates) :
    (∃ field, finding = .emptyTemplate name field) ∨
      ∃ field other, finding = .forwardReference name field other := by
  induction templates with
  | nil => cases found
  | cons template later inductionHypothesis =>
    rcases template with ⟨field, value⟩
    simp only [templateFindingsOf, List.mem_append, List.mem_map] at found
    rcases found with (empty | ⟨other, _, rfl⟩) | behind
    · split at empty
      · exact .inl ⟨field, List.mem_singleton.1 empty⟩
      · cases empty
    · exact .inr ⟨field, other, rfl⟩
    · exact inductionHypothesis behind

/-- A blank name is all that can block a method. -/
theorem exists_blocking_iff :
    (∃ finding ∈ method.findings name, finding.isBlocking = true) ↔ Text.allBlank name = true := by
  constructor
  · rintro ⟨finding, found, blocks⟩
    simp only [findings, List.mem_append] at found
    rcases found with ((blank | rule) | default) | template
    · by_contra named
      simp [named] at blank
    · rcases eq_faultyRule_of_mem rule with ⟨_, _, rfl⟩
      cases blocks
    · rw [defaultFindings_eq] at default
      rcases List.mem_flatMap.1 default with ⟨entry, _, failing⟩
      rcases eq_failingDefault_of_mem failing with ⟨_, _, rfl⟩
      cases blocks
    · rcases eq_of_mem_templateFindingsOf template with ⟨_, rfl⟩ | ⟨_, _, rfl⟩
      · cases blocks
      · cases blocks
  · intro blank
    exact ⟨.blankName name, by simp [findings, blank], rfl⟩

end WrittenMethod

namespace Document

variable {document : Document}

theorem exists_blocking_iff :
    (∃ finding ∈ document.findings, finding.isBlocking = true) ↔
      document.version ≠ supportedVersion ∨
        ∃ entry ∈ document.methods.entries, Text.allBlank entry.1 = true := by
  constructor
  · rintro ⟨finding, found, blocks⟩
    simp only [findings, List.mem_append, List.mem_flatMap] at found
    rcases found with (version | missing) | ⟨entry, listed, inMethod⟩
    · refine .inl fun supported => ?_
      simp [supported] at version
    · split at missing
      · rw [List.mem_singleton.1 missing] at blocks
        cases blocks
      · cases missing
    · exact .inr ⟨entry, listed, WrittenMethod.exists_blocking_iff.1 ⟨finding, inMethod, blocks⟩⟩
  · rintro (unsupported | ⟨entry, listed, blank⟩)
    · exact ⟨.unsupportedVersion document.version, by simp [findings, unsupported], rfl⟩
    · rcases WrittenMethod.exists_blocking_iff.2 blank with ⟨finding, inMethod, blocks⟩
      refine ⟨finding, ?_, blocks⟩
      exact List.mem_append_right _ (List.mem_flatMap.2 ⟨entry, listed, inMethod⟩)

/-- A review lists the findings in order, those that block loading apart from the others. -/
theorem review_eq
    (document : Document) :
    document.review =
      ⟨(document.findings.filter Finding.isBlocking).map Finding.issue,
        (document.findings.filter fun finding => !finding.isBlocking).map Finding.issue⟩ := by
  have errors :
      document.findings.filter ((fun issue => decide (issue.severity = .error)) ∘ Finding.issue) =
        document.findings.filter Finding.isBlocking := by
    apply List.filter_congr
    intro finding _
    rw [Function.comp_apply, Finding.severity_issue]
    cases finding.isBlocking <;> rfl
  have warnings :
      document.findings.filter ((fun issue => decide (issue.severity = .warning)) ∘ Finding.issue) =
        document.findings.filter fun finding => !finding.isBlocking := by
    apply List.filter_congr
    intro finding _
    rw [Function.comp_apply, Finding.severity_issue]
    cases finding.isBlocking <;> rfl
  rw [review, Review.ofIssues, List.filter_map, List.filter_map, errors, warnings]

/-- Of findings that do not block loading, none is there when none is raised as a warning. -/
theorem filter_findings_eq_nil_of_silent
    {test : Finding → Bool}
    (warns : ∀ finding, test finding = true → finding.isBlocking = false)
    (silent :
      ∀ warning ∈ (document.findings.filter test).map Finding.issue,
        warning ∉ document.review.warnings) :
    document.findings.filter test = [] := by
  rw [List.eq_nil_iff_forall_not_mem]
  intro finding tested
  rcases List.mem_filter.1 tested with ⟨found, passes⟩
  refine silent finding.issue (List.mem_map_of_mem tested) ?_
  rw [review_eq]
  refine List.mem_map_of_mem (List.mem_filter.2 ⟨found, ?_⟩)
  rw [warns finding passes]
  rfl

/-- A review has no errors when the version is supported and no method name is blank. -/
theorem errors_review_eq_nil_iff :
    document.review.errors = [] ↔
      document.version = supportedVersion ∧
        ∀ entry ∈ document.methods.entries, Text.allBlank entry.1 = false := by
  have none : document.review.errors = [] ↔
      ¬ ∃ finding ∈ document.findings, finding.isBlocking = true := by
    rw [review_eq, List.map_eq_nil_iff, List.filter_eq_nil_iff]
    simp
  rw [none, exists_blocking_iff]
  simp

/-- Every issue of a review carries one of the codes of findings. -/
theorem code_mem_of_mem_review
    {issue : Issue}
    (listed : issue ∈ document.review.errors ++ document.review.warnings) :
    issue.code ∈ Finding.codes := by
  rw [review_eq, ← List.map_append] at listed
  rcases List.mem_map.1 listed with ⟨finding, _, rfl⟩
  exact finding.code_issue_mem

end Document

end Assortment
