import Assortment.Proofs.Run.Expected

/-!
# The screening of the fields

A screening goes through the entries of the merged input up to the first one that leaves a required
field lacking.  The lemmas of this file say what one entry contributes, and from that what a
stretch of entries contributes when none of them is lacking: its summaries, its notices and its
fields of the product, in front of what the rest of the input gives.
-/

namespace Assortment.Screening

variable
    {method : Method}
    {options : Options}
    {defaulted : String → Bool}

/-- The summary of an entry of the merged input. -/
def summaryOf (method : Method) (defaulted : String → Bool) (entry : String × Value) :
    FieldSummary :=
  method.summary (defaulted entry.1) entry.1 entry.2

/-- The notices about an entry that does not end the screening. -/
def noticesOf (method : Method) (options : Options) (entry : String × Value) : List Notice :=
  if method.validCandidates entry.1 entry.2 = [] then
    [.optionalEmpty options.dropEmptyOptional entry.1]
  else
    []

/-- The fields of the product that some entries give. -/
def keptOf (method : Method) (options : Options) (entries : List (String × Value)) :
    List (String × List Value) :=
  (entries.map fun entry => (entry.1, method.validCandidates entry.1 entry.2)).filter fun entry =>
    !(options.dropEmptyOptional && entry.2.isEmpty)

/-- A screening stops at a required field without candidates and looks at nothing behind it. -/
theorem ofFields_cons_of_lacking
    {entry : String × Value}
    (lacking : method.Lacking entry)
    (rest : List (String × Value)) :
    ofFields method options defaulted (entry :: rest) =
      ⟨[summaryOf method defaulted entry], [.requiredEmpty entry.1], [], some entry.1⟩ := by
  rcases lacking with ⟨required, empty⟩
  have isRequired : (method.summary (defaulted entry.1) entry.1 entry.2).required = true :=
    Method.isRequired_rulesFor_iff.2 required
  simp [ofFields, Method.accepted_rulesFor, empty, isRequired, summaryOf]

theorem ofFields_cons_of_not_lacking
    {entry : String × Value}
    (passes : ¬ method.Lacking entry)
    (rest : List (String × Value)) :
    ofFields method options defaulted (entry :: rest) =
      let later := ofFields method options defaulted rest
      { summaries := summaryOf method defaulted entry :: later.summaries
        notices := noticesOf method options entry ++ later.notices
        kept := keptOf method options [entry] ++ later.kept
        stoppedAt := later.stoppedAt } := by
  by_cases empty : method.validCandidates entry.1 entry.2 = []
  · have optional : (method.summary (defaulted entry.1) entry.1 entry.2).required = false := by
      apply Bool.eq_false_iff.2
      intro required
      exact passes ⟨Method.isRequired_rulesFor_iff.1 required, empty⟩
    cases dropped : options.dropEmptyOptional <;>
      simp [ofFields, Method.accepted_rulesFor, empty, optional, summaryOf, noticesOf, keptOf,
        dropped]
  · simp [ofFields, Method.accepted_rulesFor, empty, summaryOf, noticesOf, keptOf]

/-- Entries that are not lacking are screened in front of the others. -/
theorem ofFields_append
    {before : List (String × Value)}
    (pass : ∀ entry ∈ before, ¬ method.Lacking entry)
    (rest : List (String × Value)) :
    ofFields method options defaulted (before ++ rest) =
      let later := ofFields method options defaulted rest
      { summaries := before.map (summaryOf method defaulted) ++ later.summaries
        notices := before.flatMap (noticesOf method options) ++ later.notices
        kept := keptOf method options before ++ later.kept
        stoppedAt := later.stoppedAt } := by
  induction before with
  | nil => rfl
  | cons entry others inductionHypothesis =>
    have first := pass entry List.mem_cons_self
    have behind :=
      inductionHypothesis fun other listed => pass other (List.mem_cons_of_mem _ listed)
    rw [List.cons_append, ofFields_cons_of_not_lacking first, behind]
    simp only [List.map_cons, List.cons_append, List.flatMap_cons, List.append_assoc,
      mk.injEq, true_and, and_true]
    rw [← List.append_assoc, keptOf, keptOf, keptOf, ← List.filter_append, ← List.map_append,
      List.singleton_append]

theorem ofFields_of_pass
    {entries : List (String × Value)}
    (pass : ∀ entry ∈ entries, ¬ method.Lacking entry) :
    ofFields method options defaulted entries =
      { summaries := entries.map (summaryOf method defaulted)
        notices := entries.flatMap (noticesOf method options)
        kept := keptOf method options entries
        stoppedAt := none } := by
  have whole : entries ++ [] = entries := List.append_nil entries
  rw [← whole, ofFields_append pass]
  simp [ofFields]

/-- A screening that stops gathers the contributions of the fields before the culprit. -/
theorem ofFields_of_lacking
    {before : List (String × Value)}
    {entry : String × Value}
    (pass : ∀ other ∈ before, ¬ method.Lacking other)
    (lacking : method.Lacking entry)
    (after : List (String × Value)) :
    ofFields method options defaulted (before ++ entry :: after) =
      { summaries := (before ++ [entry]).map (summaryOf method defaulted)
        notices := before.flatMap (noticesOf method options) ++ [.requiredEmpty entry.1]
        kept := keptOf method options before
        stoppedAt := some entry.1 } := by
  rw [ofFields_append pass, ofFields_cons_of_lacking lacking]
  simp

/-- Of the options, a screening looks at whether empty optional fields are dropped. -/
theorem ofFields_congr
    {other : Options}
    (same : options.dropEmptyOptional = other.dropEmptyOptional)
    (entries : List (String × Value)) :
    ofFields method options defaulted entries = ofFields method other defaulted entries := by
  induction entries with
  | nil => rfl
  | cons entry rest inductionHypothesis =>
    rcases entry with ⟨field, value⟩
    rw [ofFields, ofFields, inductionHypothesis, same]

theorem keptOf_merged
    (data : Row) :
    keptOf method options (method.merged data).entries =
      (method.productFields options data).entries := rfl

end Assortment.Screening

namespace Assortment.RunReport

theorem foldl_recordField
    (summaries : List FieldSummary)
    (report : RunReport) :
    summaries.foldl recordField report =
      { report with fields := report.fields ++ summaries } := by
  induction summaries generalizing report with
  | nil => simp
  | cons summary rest inductionHypothesis =>
    rw [List.foldl_cons, inductionHypothesis]
    simp [recordField]

/-- Count a notice under its code. -/
def tally (counts : NameTable Nat) (notice : Notice) : NameTable Nat :=
  counts.insert notice.code ((counts.get? notice.code).getD 0 + 1)

/-- Recording notices one by one appends them in order and tallies each. -/
theorem foldl_recordNotice
    (notices : List Notice)
    (report : RunReport) :
    notices.foldl recordNotice report =
      { report with
        noticeCounts := notices.foldl tally report.noticeCounts
        notices := report.notices ++ notices } := by
  induction notices generalizing report with
  | nil => simp
  | cons notice rest inductionHypothesis =>
    rw [List.foldl_cons, inductionHypothesis]
    simp [recordNotice, tally]

/-- A screening adds its summaries and its notices, which are counted by their codes. -/
theorem recordScreening_eq
    (report : RunReport)
    (screening : Screening) :
    report.recordScreening screening =
      { report with
        fields := report.fields ++ screening.summaries
        noticeCounts := screening.notices.foldl tally report.noticeCounts
        notices := report.notices ++ screening.notices } := by
  rw [recordScreening, foldl_recordField, foldl_recordNotice]

theorem fields_recordScreening
    (report : RunReport)
    (screening : Screening) :
    (report.recordScreening screening).fields = report.fields ++ screening.summaries := by
  rw [recordScreening_eq]

theorem variations_recordScreening
    (report : RunReport)
    (screening : Screening) :
    (report.recordScreening screening).variations = report.variations := by
  rw [recordScreening_eq]

end Assortment.RunReport
