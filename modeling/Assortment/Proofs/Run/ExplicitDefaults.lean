import Assortment.Proofs.Run.FieldOrder

/-!
# Defaults that are given explicitly

A run on an input is the run on the same input with the defaults filled in, apart from the marks
that tell which candidates came from a default.  Everything else that a run does depends on the
merged input, and merging an input that is merged already changes nothing.

Whether a field with a default is null or absent matters only for the place at which the default
comes to stand.  The merged inputs have the same content and the same fields are defaulted, so the
runs come to the same up to order.
-/

namespace Assortment

/-- A summary without the mark that its candidates came from a default. -/
def FieldSummary.unmarked (summary : FieldSummary) : FieldSummary :=
  { summary with defaulted := false }

/-- A screening that does not tell which candidates are defaults. -/
def Screening.unmarked (screening : Screening) : Screening :=
  { screening with summaries := screening.summaries.map FieldSummary.unmarked }

/-- A report that does not tell which candidates are defaults. -/
def RunReport.unmarked (report : RunReport) : RunReport :=
  { report with fields := report.fields.map FieldSummary.unmarked }

/-- A failure whose report does not tell which candidates are defaults. -/
def Failure.unmarked : Failure → Failure
  | unknownMethod method => unknownMethod method
  | requiredField field report => requiredField field report.unmarked
  | tooManyVariations requested limit report =>
    tooManyVariations requested limit report.unmarked

/-- What comes of a run, without the marks of defaults in its report. -/
def Outcome.unmarked : Except Failure Generated → Except Failure Generated
  | .ok generated => .ok { generated with report := generated.report.unmarked }
  | .error failure => .error failure.unmarked

/-- The input with the defaults of a method filled in; an unknown method has none. -/
def Catalogue.merged (catalogue : Catalogue) (name : String) (data : Row) : Row :=
  match catalogue.get? name with
  | some method => method.merged data
  | none => data

/-- A screening takes over the marks that it is given and does not look at them. -/
theorem Screening.unmarked_ofFields
    (method : Method)
    (options : Options)
    (defaulted others : String → Bool)
    (entries : List (String × Value)) :
    (ofFields method options defaulted entries).unmarked =
      (ofFields method options others entries).unmarked := by
  induction entries with
  | nil => rfl
  | cons entry rest inductionHypothesis =>
    by_cases lacking : method.Lacking entry
    · rw [ofFields_cons_of_lacking lacking, ofFields_cons_of_lacking lacking]
      rfl
    · simp only [unmarked, mk.injEq] at inductionHypothesis
      simp only [ofFields_cons_of_not_lacking lacking, unmarked, List.map_cons, mk.injEq,
        List.cons.injEq, inductionHypothesis, and_true]
      rfl

/-- Forgetting which fields were defaulted commutes with recording a screening. -/
theorem RunReport.unmarked_recordScreening
    (report : RunReport)
    (screening : Screening) :
    (report.recordScreening screening).unmarked =
      report.unmarked.recordScreening screening.unmarked := by
  rw [recordScreening_eq, recordScreening_eq]
  simp only [unmarked, Screening.unmarked, List.map_append]

theorem RunReport.unmarked_withVariations
    (report : RunReport)
    (count : Nat) :
    { report with variations := count }.unmarked =
      { report.unmarked with variations := count } := rfl

namespace Method

variable
    {method : Method}
    {options : Options}
    {name : String}
    {data other : Row}
    {groups : List String}

section Merged

variable (same : method.merged data = method.merged other)

include same

/-- Inputs with the same merged row have the same screened report, up to the defaulted marks. -/
theorem unmarked_screenedReport_congr
    (options : Options)
    (name : String)
    (groups : List String) :
    (method.screenedReport options name data groups).unmarked =
      (method.screenedReport options name other groups).unmarked := by
  rw [screenedReport, screenedReport, RunReport.unmarked_recordScreening,
    RunReport.unmarked_recordScreening, same,
    Screening.unmarked_ofFields method options _ (method.isDefaulted other)]

theorem expectedVariations_congr
    (options : Options)
    (groups : List String) :
    method.expectedVariations options data groups =
      method.expectedVariations options other groups := by
  rw [expectedVariations, expectedVariations, productFields, productFields, same]

theorem FirstMissing.of_merged
    {field : String}
    (first : method.FirstMissing data field) :
    method.FirstMissing other field := by
  simpa only [FirstMissing, Missing, same] using first

theorem FirstLacking.of_merged
    {before : List (String × Value)}
    {entry : String × Value}
    (first : method.FirstLacking data before entry) :
    method.FirstLacking other before entry :=
  ⟨same ▸ first.listed, first.passed, first.lacking⟩

/-- Runs on inputs that merge to the same come to the same, apart from the marks. -/
theorem Concludes.unmarked_eq
    {left right : Except Failure Generated}
    (concluded : method.Concludes options name data groups left)
    (otherConcluded : method.Concludes options name other groups right) :
    Outcome.unmarked left = Outcome.unmarked right := by
  have sameContent := congrArg OrderedMap.content same
  have reports := unmarked_screenedReport_congr same options name groups
  cases concluded with
  | missing first =>
    rw [otherConcluded.unique (.missing (first.of_merged same))]
  | lacking complete first =>
    rw [otherConcluded.unique
      (.lacking (not_missing_congr sameContent complete) (first.of_merged same))]
    simp only [Outcome.unmarked, Failure.unmarked, reports]
  | excessive complete passed limited beyond =>
    have sameSize := productSize_congr sameContent options
    rw [sameSize] at beyond ⊢
    rw [otherConcluded.unique
      (.excessive (not_missing_congr sameContent complete) (not_lacking_congr sameContent passed)
        limited beyond)]
    simp only [Outcome.unmarked, Failure.unmarked, reports]
  | produced complete passed within =>
    have sameRows := expectedVariations_congr same options groups
    have sameSize := productSize_congr sameContent options
    rw [sameSize] at within
    rw [otherConcluded.unique
      (.produced (not_missing_congr sameContent complete) (not_lacking_congr sameContent passed)
        within)]
    simp only [Outcome.unmarked, RunReport.unmarked_withVariations, reports, sameRows]

end Merged

/-- A null and no value at all make no difference to which fields are defaulted. -/
theorem isDefaulted_erase
    {field : String}
    (null : data.get? field = some .null) :
    method.isDefaulted data = method.isDefaulted (data.erase field) := by
  funext asked
  rw [isDefaulted, isDefaulted, OrderedMap.get?_erase]
  split
  · next same => rw [← same, null]; rfl
  · rfl

/-- A field with a default may be null or absent: the merged inputs have the same content. -/
theorem content_merged_erase
    {field : String}
    (declared : field ∈ method.defaults.keys)
    (null : data.get? field = some .null) :
    (method.merged data).content = (method.merged (data.erase field)).content := by
  rw [OrderedMap.content_eq_iff]
  intro asked
  rw [get?_merged, get?_merged, ← isDefaulted_erase null, OrderedMap.get?_erase]
  split
  · rfl
  · next given =>
    split
    · next same =>
      subst same
      refine absurd ?_ given
      rw [isDefaulted, OrderedMap.contains_iff.2 declared, null]
      rfl
    · rfl

end Method

/--
A run is the run with the defaults given explicitly, apart from the marks of defaults in its report,
and giving them once is enough.  For a field with a default, a null and no value at all come to the
same up to order.
-/
theorem Catalogue.generate_merged
    (catalogue : Catalogue)
    (options : Options)
    (name : String)
    (data : Row)
    (groups : List String) :
    Outcome.unmarked (catalogue.generate options name data groups) =
        Outcome.unmarked (catalogue.generate options name (catalogue.merged name data) groups) ∧
      catalogue.merged name (catalogue.merged name data) = catalogue.merged name data ∧
      ∀ method, catalogue.get? name = some method →
        ∀ field ∈ method.defaults.keys, data.get? field = some .null →
          Outcome.SameUpToOrder
            (catalogue.generate options name data groups)
            (catalogue.generate options name (data.erase field) groups) := by
  simp only [generate, merged]
  cases catalogue.get? name with
  | none => simp
  | some method =>
    have concludes (input : Row) := method.concludes_generate options name input groups
    refine ⟨?_, method.merged_merged data, ?_⟩
    · exact (concludes data).unmarked_eq (method.merged_merged data).symm (concludes _)
    · rintro _ ⟨⟩ field declared null
      exact (concludes data).sameUpToOrder_of_merged
        (Method.content_merged_erase declared null) (Method.isDefaulted_erase null) (concludes _)

/-- In the drill the side is null, and its default comes to stand first or last. -/
theorem drill_generate_merged :
    ∃ method,
      Catalogue.standard.get? "drill" = some method ∧
        "nf" ∈ method.defaults.keys ∧
        drillInput.get? "nf" = some .null ∧
        drillInput ≠ Catalogue.standard.merged "drill" drillInput ∧
        Outcome.unmarked (Catalogue.standard.generate {} "drill" drillInput ["g"]) =
          Outcome.unmarked
            (Catalogue.standard.generate {} "drill"
              (Catalogue.standard.merged "drill" drillInput) ["g"]) ∧
        Outcome.SameUpToOrder
          (Catalogue.standard.generate {} "drill" drillInput ["g"])
          (Catalogue.standard.generate {} "drill" (drillInput.erase "nf") ["g"]) ∧
        (Catalogue.standard.generate {} "drill" (drillInput.erase "nf") ["g"]).toOption.map
          (fun generated => generated.variations.length) = some 4 := by
  have known :
      (Catalogue.standard.get? "drill").map (fun method => method.defaults.keys) =
        some ["nf"] := by
    decide +kernel
  rcases Option.map_eq_some_iff.1 known with ⟨method, registered, defaults⟩
  have declared : "nf" ∈ method.defaults.keys := by simp [defaults]
  have null : drillInput.get? "nf" = some .null := by decide +kernel
  rcases Catalogue.generate_merged Catalogue.standard {} "drill" drillInput ["g"] with
    ⟨explicit, _, absent⟩
  exact ⟨method, registered, declared, null, by decide +kernel, explicit,
    absent method registered "nf" declared null, by decide +kernel⟩

end Assortment
