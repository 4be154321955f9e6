import Assortment.Proofs.Document.Findings

/-!
# What is found about defaults

The findings of a document about defaults are listed method by method and field by field.  So those
about one default stand together in the list, and they are what the rules of its field make of its
candidates; the warnings with the code of such findings are these lists put one behind the other.
-/

namespace Assortment

namespace Finding

/-- Whether the finding is about a candidate of a default. -/
def isFailingDefault : Finding → Bool
  | failingDefault _ _ _ _ => true
  | _ => false

/-- Whether the finding is about a candidate of the default of a field of a method. -/
def isDefaultOf (method field : String) : Finding → Bool
  | failingDefault ofMethod ofField _ _ => decide (ofMethod = method ∧ ofField = field)
  | _ => false

theorem isFailingDefault_of_isDefaultOf
    {method field : String}
    {finding : Finding}
    (about : finding.isDefaultOf method field = true) :
    finding.isFailingDefault = true := by
  cases finding with
  | failingDefault _ _ _ _ => rfl
  | _ => cases about

theorem isBlocking_of_isFailingDefault
    {finding : Finding}
    (failing : finding.isFailingDefault = true) :
    finding.isBlocking = false := by
  cases finding with
  | failingDefault _ _ _ _ => rfl
  | _ => cases failing

/-- The code of failing defaults is given to no other finding. -/
theorem code_eq_iff_isFailingDefault
    {finding : Finding} :
    finding.issue.code = "default_fails_rules" ↔ finding.isFailingDefault = true := by
  cases finding with
  | faultyRule method field fault => cases fault <;> simp [issue, ruleIssue, isFailingDefault]
  | _ => simp [issue, isFailingDefault]

theorem filter_eq_nil_of_others
    {test : Finding → Bool}
    {findings : List Finding}
    (only : ∀ finding, test finding = true → finding.isFailingDefault = true)
    (others : ∀ finding ∈ findings, finding.isFailingDefault = false) :
    findings.filter test = [] := by
  rw [List.filter_eq_nil_iff]
  intro finding found passes
  have failing := only finding passes
  rw [others finding found] at failing
  cases failing

end Finding

namespace WrittenMethod

variable
    {name : String}
    {method : WrittenMethod}

/-- A test that only findings about defaults pass picks out nothing else of a method. -/
theorem filter_findings_of_failingDefault
    {test : Finding → Bool}
    (only : ∀ finding, test finding = true → finding.isFailingDefault = true) :
    (method.findings name).filter test = (method.defaultFindings name).filter test := by
  have blank :
      (if Text.allBlank name then [Finding.blankName name] else []).filter test = [] := by
    refine Finding.filter_eq_nil_of_others only ?_
    split <;> simp [Finding.isFailingDefault]
  have rules : (method.ruleFindings name).filter test = [] := by
    refine Finding.filter_eq_nil_of_others only ?_
    intro finding found
    rcases eq_faultyRule_of_mem found with ⟨_, _, rfl⟩
    rfl
  have templates : (templateFindingsOf name method.templates.entries).filter test = [] := by
    refine Finding.filter_eq_nil_of_others only ?_
    intro finding found
    rcases eq_of_mem_templateFindingsOf found with ⟨_, rfl⟩ | ⟨_, _, rfl⟩
    · rfl
    · rfl
  simp only [findings, List.filter_append, blank, rules, templates, List.nil_append,
    List.append_nil]

theorem filter_isDefaultOf_defaultFindingsOf
    (asked askedField field : String)
    (value : Value) :
    (method.defaultFindingsOf name field value).filter (Finding.isDefaultOf asked askedField) =
      if name = asked ∧ field = askedField then method.defaultFindingsOf name field value
      else [] := by
  by_cases same : name = asked ∧ field = askedField
  · rw [if_pos same, List.filter_eq_self]
    intro finding found
    rcases eq_failingDefault_of_mem found with ⟨candidate, rule, rfl⟩
    exact decide_eq_true same
  · rw [if_neg same, List.filter_eq_nil_iff]
    intro finding found about
    rcases eq_failingDefault_of_mem found with ⟨candidate, rule, rfl⟩
    exact same (of_decide_eq_true about)

end WrittenMethod

namespace Document

variable {document : Document}

/-- The findings about failing defaults come from the defaults of the methods, in their order. -/
theorem filter_findings_of_failingDefault
    {test : Finding → Bool}
    (only : ∀ finding, test finding = true → finding.isFailingDefault = true) :
    document.findings.filter test =
      document.methods.entries.flatMap fun method =>
        method.2.defaults.entries.flatMap fun default =>
          (method.2.defaultFindingsOf method.1 default.1 default.2).filter test := by
  have version :
      (if document.version = supportedVersion then
          []
        else
          [Finding.unsupportedVersion document.version]).filter test = [] := by
    refine Finding.filter_eq_nil_of_others only ?_
    split <;> simp [Finding.isFailingDefault]
  have missing :
      (if document.methods.isEmpty then [Finding.noMethods] else []).filter test = [] := by
    refine Finding.filter_eq_nil_of_others only ?_
    split <;> simp [Finding.isFailingDefault]
  simp only [findings, List.filter_append, version, missing, List.nil_append,
    List.filter_flatMap, WrittenMethod.filter_findings_of_failingDefault only,
    WrittenMethod.defaultFindings_eq]

/-- What is found about one default stands together. -/
theorem filter_isDefaultOf_findings
    {name field : String}
    {method : WrittenMethod}
    {value : Value}
    (listed : (name, method) ∈ document.methods.entries)
    (declared : (field, value) ∈ method.defaults.entries) :
    document.findings.filter (Finding.isDefaultOf name field) =
      method.defaultFindingsOf name field value := by
  rw [filter_findings_of_failingDefault fun _ => Finding.isFailingDefault_of_isDefaultOf]
  simp only [WrittenMethod.filter_isDefaultOf_defaultFindingsOf]
  -- Names and fields are distinct, so one method and one field contribute.
  rw [Entries.flatMap_eq_of_mem document.methods.ascending.nodup listed,
    Entries.flatMap_eq_of_mem method.defaults.distinct declared, if_pos ⟨rfl, rfl⟩]
  · intro other _ different
    rw [if_neg fun same => different same.2]
  · intro other _ different
    rw [List.flatMap_eq_nil_iff]
    intro default _
    rw [if_neg fun same => different same.1]

/-- The warnings about the default of a field of a method. -/
def defaultWarnings (document : Document) (method field : String) : List Issue :=
  (document.findings.filter (Finding.isDefaultOf method field)).map Finding.issue

/-- The warnings about defaults are those about each default of each method, in order. -/
theorem filter_warnings_review
    (document : Document) :
    (document.review.warnings.filter fun issue => issue.code = "default_fails_rules") =
      document.methods.entries.flatMap fun method =>
        method.2.defaults.entries.flatMap fun default =>
          document.defaultWarnings method.1 default.1 := by
  have picked :
      (document.review.warnings.filter fun issue => issue.code = "default_fails_rules") =
        (document.findings.filter Finding.isFailingDefault).map Finding.issue := by
    rw [review_eq, List.filter_map, List.filter_filter]
    congr 1
    apply List.filter_congr
    intro finding _
    rw [Function.comp_apply]
    cases failing : finding.isFailingDefault with
    | true =>
      simp [Finding.code_eq_iff_isFailingDefault.2 failing,
        Finding.isBlocking_of_isFailingDefault failing]
    | false =>
      have otherCode : finding.issue.code ≠ "default_fails_rules" := by
        intro same
        rw [Finding.code_eq_iff_isFailingDefault.1 same] at failing
        cases failing
      simp [otherCode]
  rw [picked, filter_findings_of_failingDefault fun _ failing => failing, List.map_flatMap]
  apply List.flatMap_congr
  intro method listed
  rw [List.map_flatMap]
  apply List.flatMap_congr
  intro default declared
  rw [defaultWarnings, filter_isDefaultOf_findings listed declared, List.filter_eq_self.2]
  intro finding found
  rcases WrittenMethod.eq_failingDefault_of_mem found with ⟨_, _, rfl⟩
  rfl

end Document

end Assortment
