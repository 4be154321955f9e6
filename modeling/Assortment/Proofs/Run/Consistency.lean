import Assortment.Proofs.Run.Summaries

/-!
# Reports are consistent

A report is kept in several places while a run goes on: summaries of the fields, notices, the
counts of the notices by code and, at the end, the number of variations.  Whichever way the run
concludes, these places say the same.

A summary accounts for every candidate of its field, which is either accepted or rejected by the
first rule that it fails.  The counts are those of the notices, because recording a notice changes
both at once.  When the run succeeds, the number of its variations can be read off the summaries,
and so can all of its notices.
-/

namespace Assortment

/-- The rejection that a candidate gets which fails one of the rules: the first such rule is named,
with its parameter in brackets if it has one. -/
inductive RuleList.Rejects (list : RuleList) : Value → Rejection → Prop
  | atFirst
      {passed behind : List Rule}
      {rule : Rule}
      (candidate : Value)
      (listed : list.rules = passed ++ rule :: behind)
      (earlier : ∀ other ∈ passed, other.accepts candidate = true)
      (fails : rule.accepts candidate = false) :
      Rejects list candidate
        ⟨candidate,
          rule.name ++ rule.parameter.elim "" fun parameter => "[" ++ parameter ++ "]"⟩

/-- A summary that accounts for every candidate of a value. -/
structure FieldSummary.Accounts
    (method : Method)
    (value : Value)
    (summary : FieldSummary) :
    Prop where
  candidates : summary.candidates = value.offered.length
  accepted : summary.accepted = (method.validCandidates summary.field value).length
  rejections :
    List.Forall₂
      (fun candidate rejection =>
        ∃ rules ∈ method.rules.get? summary.field, rules.Rejects candidate rejection)
      (value.offered.filter fun candidate => !decide (method.Valid summary.field candidate))
      summary.rejections

namespace RunReport

/-- The counts of some notices have the codes that notices carry, each with the number of the
notices that carry it. -/
def Tallied (counts : NameTable Nat) (notices : List Notice) : Prop :=
  ∀ code, counts.get? code =
    if notices.countP (·.code = code) = 0 then none else some (notices.countP (·.code = code))

/-- A report that says the same in all its places about a run of a method. -/
structure Consistent (method : Method) (data : Row) (report : RunReport) : Prop where
  balanced :
    ∀ summary ∈ report.fields,
      summary.accepted + summary.rejections.length = summary.candidates
  accounted :
    ∀ summary ∈ report.fields, ∀ value ∈ (method.merged data).get? summary.field,
      summary.Accounts method value
  /-- The only field of a report that the merged input lacks is one that was required. -/
  absent :
    ∀ summary ∈ report.fields, summary.field ∉ (method.merged data).keys →
      summary =
          { field := summary.field
            required := true
            defaulted := false
            candidates := 0
            accepted := 0
            rejections := [] } ∧
        report.fields = [summary] ∧
        report.notices =
          [{ code := "required_field_missing"
             message := "required field '" ++ summary.field ++ "' is absent and has no default"
             field := some summary.field }]
  distinct : (report.fields.map FieldSummary.field).Nodup
  tallied : Tallied report.noticeCounts report.notices

/-- The summaries of the fields that enter the product. -/
def kept (options : Options) (report : RunReport) : List FieldSummary :=
  report.fields.filter fun summary => !(options.dropEmptyOptional && summary.accepted == 0)

end RunReport

/-- Variations of which the report tells the number and every field that has no candidate. -/
structure Generated.Reported
    (method : Method)
    (options : Options)
    (data : Row)
    (generated : Generated) :
    Prop where
  fields : generated.report.fields.map FieldSummary.field = (method.merged data).keys
  variations : generated.report.variations = generated.variations.length
  product :
    generated.variations.length =
      if generated.report.kept options = [] then
        0
      else
        ((generated.report.kept options).map FieldSummary.accepted).prod
  notices :
    generated.report.notices =
      (generated.report.fields.filter fun summary => summary.accepted = 0).map fun summary =>
        { code := "optional_field_empty"
          message :=
            "optional field '" ++ summary.field ++ "' has no valid candidates; " ++
              if options.dropEmptyOptional then
                "field dropped from the matrix"
              else
                "no variations will be produced"
          field := some summary.field }

theorem Rule.text_eq
    (rule : Rule) :
    rule.text = rule.name ++ rule.parameter.elim "" fun parameter => "[" ++ parameter ++ "]" := by
  rw [text]
  cases rule.parameter <;> simp [String.append_assoc]

namespace RuleList

variable {list : RuleList}

theorem rejects_of_firstFailure?
    {candidate : Value}
    {rule : Rule}
    (failed : list.firstFailure? candidate = some rule) :
    list.Rejects candidate ⟨candidate, rule.text⟩ := by
  rcases List.find?_eq_some_iff_append.1 failed with ⟨fails, passed, behind, listed, earlier⟩
  rw [rule.text_eq]
  refine .atFirst candidate listed ?_ (by simpa using fails)
  intro other member
  simpa using earlier other member

/-- The rejections are those of the candidates that are not accepted, in order. -/
theorem forall₂_rejects_rejections
    (list : RuleList)
    (value : Value) :
    List.Forall₂ list.Rejects
      (value.candidates.filter fun candidate => !list.accepts candidate)
      (list.rejections value) := by
  rw [rejections]
  induction value.candidates with
  | nil => exact .nil
  | cons candidate rest inductionHypothesis =>
    cases failed : list.firstFailure? candidate with
    | none =>
      have passes : list.accepts candidate = true := by simp [accepts, failed]
      simp only [List.filter_cons, List.filterMap_cons, passes, failed, Bool.not_true,
        Bool.false_eq_true, if_false, Option.map_none]
      exact inductionHypothesis
    | some rule =>
      have fails : list.accepts candidate = false := by simp [accepts, failed]
      simp only [List.filter_cons, List.filterMap_cons, fails, failed, Bool.not_false, if_true,
        Option.map_some]
      exact .cons (rejects_of_firstFailure? failed) inductionHypothesis

/-- Every candidate is either accepted or rejected. -/
theorem length_accepted_add_length_rejections
    (list : RuleList)
    (value : Value) :
    (list.accepted value).length + (list.rejections value).length = value.candidates.length := by
  rw [← (list.forall₂_rejects_rejections value).length_eq, accepted]
  exact (List.length_eq_length_filter_add list.accepts).symm

end RuleList

namespace RunReport

theorem tallied_empty : Tallied .empty [] :=
  fun _ => rfl

/-- Counting one more notice keeps the counts those of the notices. -/
theorem Tallied.tally
    {counts : NameTable Nat}
    {notices : List Notice}
    (tallied : Tallied counts notices)
    (notice : Notice) :
    Tallied (tally counts notice) (notices ++ [notice]) := by
  intro code
  rw [RunReport.tally, NameTable.get?_insert, List.countP_append, List.countP_singleton]
  by_cases carried : notice.code = code
  · subst carried
    have before :
        (counts.get? notice.code).getD 0 = notices.countP (·.code = notice.code) := by
      rw [tallied]
      cases notices.countP (·.code = notice.code) <;> rfl
    simp [before]
  · simp [carried, tallied code]

/-- Tallying further notices one by one keeps the table the count of all of them. -/
theorem Tallied.foldl_tally
    {counts : NameTable Nat}
    {notices : List Notice}
    (tallied : Tallied counts notices)
    (later : List Notice) :
    Tallied (later.foldl RunReport.tally counts) (notices ++ later) := by
  induction later generalizing counts notices with
  | nil => simpa using tallied
  | cons notice rest inductionHypothesis =>
    have counted := inductionHypothesis (tallied.tally notice)
    simpa using counted

end RunReport

namespace Method

variable
    {method : Method}
    {options : Options}
    {name : String}
    {data : Row}
    {groups : List String}

/-- A field whose rules reject a candidate has rules of its own. -/
theorem exists_rules_of_rejects
    {field : String}
    {candidate : Value}
    {rejection : Rejection}
    (rejects : (method.rulesFor field).Rejects candidate rejection) :
    ∃ rules ∈ method.rules.get? field, rules.Rejects candidate rejection := by
  rw [rulesFor, rulesFor?] at rejects
  cases held : method.rules.get? field with
  | some rules =>
    rw [held] at rejects
    exact ⟨rules, rfl, rejects⟩
  | none =>
    rw [held] at rejects
    rcases rejects with ⟨_, listed, _, _⟩
    simp [RuleList.empty] at listed

theorem accounts_summary
    (method : Method)
    (defaulted : Bool)
    (field : String)
    (value : Value) :
    (method.summary defaulted field value).Accounts method value where
  candidates := congrArg List.length value.candidates_eq_offered
  accepted := congrArg List.length (method.accepted_rulesFor field value)
  rejections := by
    have rejected := (method.rulesFor field).forall₂_rejects_rejections value
    rw [value.candidates_eq_offered] at rejected
    have sameTest :
        (fun candidate => !(method.rulesFor field).accepts candidate) =
          fun candidate => !decide (method.Valid field candidate) := by
      funext candidate
      rw [Bool.eq_iff_iff.2 (accepts_rulesFor_iff.trans decide_eq_true_iff.symm)]
    rw [sameTest] at rejected
    exact rejected.imp fun _ _ => exists_rules_of_rejects

theorem tallied_screenedReport :
    RunReport.Tallied
      (method.screenedReport options name data groups).noticeCounts
      (method.screenedReport options name data groups).notices := by
  rw [screenedReport, RunReport.recordScreening_eq]
  exact RunReport.tallied_empty.foldl_tally _

/-- A report that summarizes a front of the merged input is consistent when its counts are. -/
theorem consistent_of_front
    {report : RunReport}
    {front : List (String × Value)}
    (leads : front <+: (method.merged data).entries)
    (fields :
      report.fields = front.map (Screening.summaryOf method (method.isDefaulted data)))
    (tallied : RunReport.Tallied report.noticeCounts report.notices) :
    report.Consistent method data where
  balanced := by
    rw [fields]
    intro summary listed
    rcases List.mem_map.1 listed with ⟨entry, _, rfl⟩
    exact (method.rulesFor entry.1).length_accepted_add_length_rejections entry.2
  accounted := by
    rw [fields]
    intro summary listed value held
    rcases List.mem_map.1 listed with ⟨entry, inFront, rfl⟩
    have found : (entry.1, value) ∈ (method.merged data).entries :=
      OrderedMap.get?_eq_some_iff.1 held
    rw [OrderedMap.value_unique found (leads.subset inFront)]
    exact method.accounts_summary _ entry.1 entry.2
  absent := by
    rw [fields]
    intro summary listed unknown
    rcases List.mem_map.1 listed with ⟨entry, inFront, rfl⟩
    exact absurd (Entries.mem_keys_of_mem (leads.subset inFront)) unknown
  distinct := by
    rw [fields, List.map_map]
    exact (leads.sublist.map Prod.fst).nodup (method.merged data).distinct
  tallied := tallied

/-- A screened report is consistent with the method and the input it was made from. -/
theorem consistent_screenedReport :
    (method.screenedReport options name data groups).Consistent method data := by
  rcases exists_front_screenedReport with ⟨front, leads, fields⟩
  exact consistent_of_front leads fields tallied_screenedReport

/-- The report about an absent field is consistent, though no candidate was looked at. -/
theorem consistent_missingReport
    {field : String}
    (missing : method.Missing data field) :
    (missingReport name groups field).Consistent method data where
  balanced := by
    intro summary listed
    rw [List.mem_singleton.1 listed]
    rfl
  accounted := by
    intro summary listed value held
    rw [List.mem_singleton.1 listed] at held
    have absent := OrderedMap.get?_eq_none_iff.2 missing.2
    cases held.symm.trans absent
  absent := by
    intro summary listed _
    rw [List.mem_singleton.1 listed]
    exact ⟨rfl, rfl, rfl⟩
  distinct := List.nodup_singleton field
  tallied := RunReport.tallied_empty.tally (.requiredMissing field)

theorem Concludes.consistent_of_error
    {failure : Failure}
    {report : RunReport}
    (concluded : method.Concludes options name data groups (.error failure))
    (reported : failure.report? = some report) :
    report.Consistent method data := by
  cases concluded with
  | missing first =>
    cases reported
    exact consistent_missingReport first.1
  | lacking _ _ =>
    cases reported
    exact consistent_screenedReport
  | excessive _ _ _ _ =>
    cases reported
    exact consistent_screenedReport

/-- The report of a run that yields rows is consistent. -/
theorem Concludes.consistent_of_ok
    {generated : Generated}
    (concluded : method.Concludes options name data groups (.ok generated)) :
    generated.report.Consistent method data := by
  cases concluded with
  | produced _ _ _ =>
    rcases exists_front_screenedReport with ⟨front, leads, fields⟩
    exact consistent_of_front leads fields tallied_screenedReport

theorem accepted_summaryOf
    {defaulted : String → Bool}
    (entry : String × Value) :
    (Screening.summaryOf method defaulted entry).accepted =
      (method.validCandidates entry.1 entry.2).length :=
  congrArg List.length (method.accepted_rulesFor entry.1 entry.2)

/-- The sizes of the product are the numbers of accepted candidates of the kept summaries. -/
theorem sizes_productFields
    {report : RunReport}
    (fields :
      report.fields =
        (method.merged data).entries.map
          (Screening.summaryOf method (method.isDefaulted data))) :
    (method.productFields options data).values.map List.length =
      (report.kept options).map FieldSummary.accepted := by
  have sameTest (entry : String × Value) :
      (!(options.dropEmptyOptional && (method.validCandidates entry.1 entry.2).isEmpty)) =
        !(options.dropEmptyOptional &&
          (Screening.summaryOf method (method.isDefaulted data) entry).accepted == 0) := by
    rw [accepted_summaryOf]
    cases method.validCandidates entry.1 entry.2 <;> rfl
  rw [OrderedMap.values, entries_productFields, RunReport.kept, fields, List.filter_map,
    List.map_map, List.map_map, List.map_map]
  simp only [Function.comp_def, sameTest, accepted_summaryOf]

/-- The number of variations is the product of what the kept summaries accepted. -/
theorem productSize_eq_of_fields
    {report : RunReport}
    (fields :
      report.fields =
        (method.merged data).entries.map
          (Screening.summaryOf method (method.isDefaulted data))) :
    method.productSize options data =
      if report.kept options = [] then
        0
      else
        ((report.kept options).map FieldSummary.accepted).prod := by
  have sizes :
      (method.productFields options data).values.map List.length =
        (report.kept options).map FieldSummary.accepted :=
    sizes_productFields fields
  have sameEmpty :
      (method.productFields options data).entries = [] ↔ report.kept options = [] := by
    rw [← List.map_eq_nil_iff (f := FieldSummary.accepted), ← sizes, OrderedMap.values,
      List.map_eq_nil_iff, List.map_eq_nil_iff]
  rw [productSize, sizes]
  exact if_congr sameEmpty rfl rfl

/-- When no entry is lacking, the notices are about the entries without a valid candidate. -/
theorem flatMap_noticesOf
    (defaulted : String → Bool)
    (entries : List (String × Value)) :
    entries.flatMap (Screening.noticesOf method options) =
      ((entries.map (Screening.summaryOf method defaulted)).filter
        fun summary => summary.accepted = 0).map
          fun summary => .optionalEmpty options.dropEmptyOptional summary.field := by
  induction entries with
  | nil => rfl
  | cons entry rest inductionHypothesis =>
    rw [List.flatMap_cons, inductionHypothesis, Screening.noticesOf, List.map_cons,
      List.filter_cons, accepted_summaryOf]
    cases method.validCandidates entry.1 entry.2 <;> simp [Screening.summaryOf, summary]

/-- A run that yields rows reports their number and the optional fields it found empty. -/
theorem Concludes.reported_of_ok
    {generated : Generated}
    (concluded : method.Concludes options name data groups (.ok generated)) :
    generated.Reported method options data := by
  cases concluded with
  | produced _ passed _ =>
    have fields :
        (method.screenedReport options name data groups).fields =
          (method.merged data).entries.map
            (Screening.summaryOf method (method.isDefaulted data)) := by
      rw [fields_screenedReport, Screening.ofFields_of_pass passed]
    have notices :
        (method.screenedReport options name data groups).notices =
          (method.merged data).entries.flatMap (Screening.noticesOf method options) := by
      rw [screenedReport, RunReport.recordScreening_eq, Screening.ofFields_of_pass passed]
      rfl
    refine ⟨?_, rfl, ?_, ?_⟩
    · rw [fields, List.map_map]
      rfl
    · rw [length_expectedVariations]
      exact productSize_eq_of_fields fields
    · rw [notices, fields, flatMap_noticesOf (method.isDefaulted data)]
      rfl

end Method

/--
A run that has a report is the run of a registered method, and its report is consistent.  When the
run succeeds, the report tells the number of its variations, which is the product of the numbers of
accepted candidates, and has one notice for each field without any.
-/
theorem Catalogue.report_consistent
    {catalogue : Catalogue}
    {options : Options}
    {name : String}
    {data : Row}
    {groups : List String}
    {report : RunReport}
    (reported : Outcome.report? (catalogue.generate options name data groups) = some report) :
    ∃ method, catalogue.get? name = some method ∧
      report.Consistent method data ∧
        ∀ generated, catalogue.generate options name data groups = .ok generated →
          generated.report = report ∧ generated.Reported method options data := by
  cases registered : catalogue.get? name with
  | none =>
    rw [generate, registered] at reported
    cases reported
  | some method =>
    rw [generate_of_registered registered] at reported ⊢
    have concluded := method.concludes_generate options name data groups
    refine ⟨method, rfl, ?_⟩
    cases result : method.generate options name data groups with
    | error failure =>
      rw [result] at concluded reported
      rw [Outcome.report?_error] at reported
      refine ⟨concluded.consistent_of_error reported, ?_⟩
      rintro _ ⟨⟩
    | ok generated =>
      rw [result] at concluded reported
      cases reported
      refine ⟨concluded.consistent_of_ok, ?_⟩
      rintro _ ⟨⟩
      exact ⟨rfl, concluded.reported_of_ok⟩

/-- An input for the pin with two codes out of bounds and, if asked for, a field that is empty. -/
def pinInput : Row :=
  OrderedMap.ofList
    [("code", .array [.int 5, .int 1000, .string "x", .int 10000, .int 2000]),
      ("note", .array []), ("id", .int 7)]

/-- A run over four fields, one optional and empty, whose report is consistent and counts two rows.
-/
theorem pin_report_consistent :
    ∃ report method,
      Outcome.report? (Catalogue.standard.generate ⟨true, none⟩ "pin" pinInput ["g"]) =
          some report ∧
        Catalogue.standard.get? "pin" = some method ∧
        report.Consistent method pinInput ∧
        report.fields.map FieldSummary.accepted = [2, 0, 1, 1] ∧
        report.noticeCounts.entries = [("optional_field_empty", 1)] ∧
        report.variations = 2 := by
  have checked :
      (Outcome.report? (Catalogue.standard.generate ⟨true, none⟩ "pin" pinInput ["g"])).map
          (fun report =>
            (report.fields.map FieldSummary.accepted, report.noticeCounts.entries,
              report.variations)) =
        some ([2, 0, 1, 1], [("optional_field_empty", 1)], 2) := by
    decide +kernel
  rcases Option.map_eq_some_iff.1 checked with ⟨report, reported, told⟩
  rcases Catalogue.report_consistent reported with ⟨method, registered, consistent, _⟩
  simp only [Prod.mk.injEq] at told
  exact ⟨report, method, reported, registered, consistent, told⟩

end Assortment
