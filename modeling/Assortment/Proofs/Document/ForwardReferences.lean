import Assortment.Proofs.Document.Findings

/-!
# What is found about forward references

A template refers forward when a name that its scan finds is the output of a later template.  Each
such name is a finding about its method, so where nothing of the kind is found, no output is among
the names of an earlier template.
-/

namespace Assortment

/-- Whether the finding is about a template of a method that refers to the output of a later one. -/
def Finding.isForwardReferenceOf (method : String) : Finding → Bool
  | forwardReference ofMethod _ _ => decide (ofMethod = method)
  | _ => false

theorem Finding.isBlocking_of_isForwardReferenceOf
    {method : String}
    {finding : Finding}
    (about : finding.isForwardReferenceOf method = true) :
    finding.isBlocking = false := by
  cases finding with
  | forwardReference _ _ _ => rfl
  | _ => cases about

namespace WrittenMethod

/-- Without such findings, no template names the output of a later one. -/
theorem pairwise_of_not_forward
    {name : String}
    {templates : List (String × Value)}
    (silent :
      ∀ field other, .forwardReference name field other ∉ templateFindingsOf name templates) :
    templates.Pairwise fun earlier later =>
      later.1 ∉ Placeholder.names (earlier.2.string?.getD "") := by
  induction templates with
  | nil => exact .nil
  | cons template rest inductionHypothesis =>
    rcases template with ⟨field, value⟩
    refine List.pairwise_cons.2 ⟨?_, inductionHypothesis ?_⟩
    · intro later listed named
      refine silent field later.1 ?_
      have output := Entries.mem_keys_of_mem listed
      simp [templateFindingsOf, named, output]
    · intro other output found
      exact silent other output (List.mem_append_right _ found)

end WrittenMethod

namespace Document

variable {document : Document}

/-- The warnings about templates of a method that refer to the output of a later one. -/
def forwardWarnings (document : Document) (method : String) : List Issue :=
  (document.findings.filter (Finding.isForwardReferenceOf method)).map Finding.issue

theorem mem_findings_of_templateFindingsOf
    {name : String}
    {method : WrittenMethod}
    {finding : Finding}
    (listed : (name, method) ∈ document.methods.entries)
    (found : finding ∈ WrittenMethod.templateFindingsOf name method.templates.entries) :
    finding ∈ document.findings := by
  refine List.mem_append_right _ (List.mem_flatMap.2 ⟨(name, method), listed, ?_⟩)
  exact List.mem_append_right _ found

/-- Where no forward reference of a method is warned about, its templates are in order. -/
theorem pairwise_of_silent
    {name : String}
    {method : WrittenMethod}
    (listed : (name, method) ∈ document.methods.entries)
    (silent : ∀ warning ∈ document.forwardWarnings name, warning ∉ document.review.warnings) :
    method.templates.entries.Pairwise fun earlier later =>
      later.1 ∉ Placeholder.names (earlier.2.string?.getD "") := by
  have noneFound :=
    filter_findings_eq_nil_of_silent
      (fun _ => Finding.isBlocking_of_isForwardReferenceOf) silent
  apply WrittenMethod.pairwise_of_not_forward
  intro field other found
  have inDocument := mem_findings_of_templateFindingsOf listed found
  exact List.filter_eq_nil_iff.1 noneFound _ inDocument (decide_eq_true rfl)

end Document

end Assortment
