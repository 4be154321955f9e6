import Assortment.Proofs.Run.Variations

/-!
# What a report says about fields

The report of a run has one summary for each entry of the merged input, up to the entry at which
the screening stopped; the report about a missing field has a single summary, with no candidates.
A summary in which the candidates come from a default is therefore about an entry of the merged
input for which the default stands in, and everything it says, it says of the default.
-/

namespace Assortment.Method

/-- The summaries that the report of a run may hold. -/
inductive Summarizes (method : Method) (data : Row) : List FieldSummary → Prop
  | missing (field : String) :
      Summarizes method data [.blank field true false]
  | screened
      {front : List (String × Value)}
      (leads : front <+: (method.merged data).entries) :
      Summarizes method data (front.map (Screening.summaryOf method (method.isDefaulted data)))

variable
    {method : Method}
    {options : Options}
    {name : String}
    {data : Row}
    {groups : List String}

/-- However far a screening went, its report summarizes a front of the merged input. -/
theorem exists_front_screenedReport :
    ∃ front, front <+: (method.merged data).entries ∧
      (method.screenedReport options name data groups).fields =
        front.map (Screening.summaryOf method (method.isDefaulted data)) := by
  rw [fields_screenedReport]
  rcases method.firstLacking_or_passed data with ⟨before, entry, first⟩ | passed
  · rcases first.listed with ⟨after, split⟩
    rw [split, Screening.ofFields_of_lacking first.passed first.lacking]
    exact ⟨before ++ [entry], ⟨after, by simp⟩, rfl⟩
  · rw [Screening.ofFields_of_pass passed]
    exact ⟨(method.merged data).entries, List.prefix_refl _, rfl⟩

/-- The summaries of a screened report are those of the merged fields it got to. -/
theorem summarizes_screenedReport :
    method.Summarizes data (method.screenedReport options name data groups).fields := by
  rcases exists_front_screenedReport with ⟨front, leads, fields⟩
  rw [fields]
  exact .screened leads

theorem Concludes.summarizes_of_ok
    {generated : Generated}
    (concluded : method.Concludes options name data groups (.ok generated)) :
    method.Summarizes data generated.report.fields := by
  cases concluded with
  | produced _ _ _ => exact summarizes_screenedReport

/-- The summaries of a failed run are those of merged fields, or the one of a missing field. -/
theorem Concludes.summarizes_of_error
    {failure : Failure}
    {report : RunReport}
    (concluded : method.Concludes options name data groups (.error failure))
    (reported : failure.report? = some report) :
    method.Summarizes data report.fields := by
  cases concluded with
  | missing _ =>
    cases reported
    exact .missing _
  | lacking _ _ =>
    cases reported
    exact summarizes_screenedReport
  | excessive _ _ _ _ =>
    cases reported
    exact summarizes_screenedReport

/-- The summary of a defaulted field is the one that its default would get by itself. -/
theorem Summarizes.eq_summary_of_defaulted
    {summaries : List FieldSummary}
    {summary : FieldSummary}
    (summarizes : method.Summarizes data summaries)
    (listed : summary ∈ summaries)
    (defaulted : summary.defaulted = true) :
    ∃ value, method.defaults.get? summary.field = some value ∧
      summary = method.summary true summary.field value := by
  cases summarizes with
  | missing field =>
    rw [List.mem_singleton.1 listed] at defaulted
    cases defaulted
  | screened leads =>
    rcases List.mem_map.1 listed with ⟨⟨field, value⟩, inFront, rfl⟩
    have injected : method.isDefaulted data field = true := defaulted
    refine ⟨value, get?_defaults_of_isDefaulted injected (leads.subset inFront), ?_⟩
    rw [Screening.summaryOf, injected]
    rfl

end Assortment.Method
