import Assortment.Proofs.Choices
import Assortment.Proofs.NameTable
import Assortment.Proofs.Run.Screening

/-!
# How a run concludes

A run of a method concludes in one of four ways, and `Method.Concludes` lists them with everything
that is known in each: the condition on the merged input under which it comes about, and the whole
result.  The theorem that every run concludes so is the only place where a run is taken apart; all
that is said about results of runs is read off the four cases.
-/

namespace Assortment

/-- The report of a run, if it got as far as its method. -/
def Outcome.report? : Except Failure Generated → Option RunReport
  | .ok generated => some generated.report
  | .error (.unknownMethod _) => none
  | .error (.requiredField _ report) => some report
  | .error (.tooManyVariations _ _ report) => some report

theorem Outcome.report?_error
    (failure : Failure) :
    Outcome.report? (.error failure) = failure.report? := by
  cases failure <;> rfl

namespace Method

/-- A required field that the merged input does not have. -/
def Missing (method : Method) (data : Row) (field : String) : Prop :=
  method.Requires field ∧ field ∉ (method.merged data).keys

/-- The missing field that no other missing field comes before by name. -/
def FirstMissing (method : Method) (data : Row) (field : String) : Prop :=
  method.Missing data field ∧ ∀ other, method.Missing data other → ¬ other < field

/-- The entry of the merged input that is the first lacking one, with what stands before it. -/
structure FirstLacking
    (method : Method)
    (data : Row)
    (before : List (String × Value))
    (entry : String × Value) :
    Prop where
  listed : ∃ after, (method.merged data).entries = before ++ entry :: after
  passed : ∀ other ∈ before, ¬ method.Lacking other
  lacking : method.Lacking entry

/-- The number of variations that a run would produce if there were no limit: the product of the
numbers of valid candidates of the fields, and none if there are no fields. -/
def productSize (method : Method) (options : Options) (data : Row) : Nat :=
  let fields := method.productFields options data
  if fields.entries = [] then 0 else (fields.values.map List.length).prod

/-- The number of rows asked for is the product that the choices count towards their limit. -/
theorem productSize_eq_product
    (method : Method)
    (options : Options)
    (data : Row) :
    method.productSize options data = Choices.product ⟨method.productFields options data⟩ := by
  have sizes :
      (method.productFields options data).values.map List.length =
        Choices.sizes ⟨method.productFields options data⟩ :=
    List.map_map
  rw [productSize, sizes]
  by_cases empty : (method.productFields options data).entries = []
  · rw [if_pos empty]
    exact (Choices.product_eq_zero (.inl empty)).symm
  · rw [if_neg empty]
    exact (Choices.product_of_nonempty empty).symm

/-- The report of a run that found a required field missing. -/
def missingReport (name : String) (groups : List String) (field : String) : RunReport :=
  ((RunReport.start "" name groups).recordField (.blank field true false)).recordNotice
    (.requiredMissing field)

/-- The report of a run that screened its merged input. -/
def screenedReport
    (method : Method)
    (options : Options)
    (name : String)
    (data : Row)
    (groups : List String) :
    RunReport :=
  (RunReport.start "" name groups).recordScreening
    (Screening.ofFields method options (method.isDefaulted data) (method.merged data).entries)

theorem fields_screenedReport
    {method : Method}
    {options : Options}
    {name : String}
    {data : Row}
    {groups : List String} :
    (method.screenedReport options name data groups).fields =
      (Screening.ofFields method options (method.isDefaulted data)
        (method.merged data).entries).summaries := by
  rw [screenedReport, RunReport.fields_recordScreening]
  rfl

/-- The ways in which a run concludes. -/
inductive Concludes
    (method : Method)
    (options : Options)
    (name : String)
    (data : Row)
    (groups : List String) :
    Except Failure Generated → Prop
  | missing
      {field : String}
      (first : method.FirstMissing data field) :
      Concludes method options name data groups
        (.error (.requiredField field (missingReport name groups field)))
  | lacking
      {before : List (String × Value)}
      {entry : String × Value}
      (complete : ∀ field, ¬ method.Missing data field)
      (first : method.FirstLacking data before entry) :
      Concludes method options name data groups
        (.error (.requiredField entry.1 (method.screenedReport options name data groups)))
  | excessive
      {limit : UInt64}
      (complete : ∀ field, ¬ method.Missing data field)
      (passed : ∀ entry ∈ (method.merged data).entries, ¬ method.Lacking entry)
      (limited : options.limit = some limit)
      (beyond : limit.toNat < method.productSize options data) :
      Concludes method options name data groups
        (.error (.tooManyVariations
          (min (method.productSize options data) Choices.greatestCount) limit
          (method.screenedReport options name data groups)))
  | produced
      (complete : ∀ field, ¬ method.Missing data field)
      (passed : ∀ entry ∈ (method.merged data).entries, ¬ method.Lacking entry)
      (within :
        ∀ limit, options.limit = some limit → method.productSize options data ≤ limit.toNat) :
      Concludes method options name data groups
        (.ok ⟨method.expectedVariations options data groups,
          { method.screenedReport options name data groups with
            variations := (method.expectedVariations options data groups).length }⟩)

theorem mem_requiredFields_iff
    {method : Method}
    {field : String} :
    field ∈ method.requiredFields ↔ method.Requires field := by
  simp only [requiredFields, List.mem_map, List.mem_filter, Prod.exists]
  constructor
  · rintro ⟨_, rules, ⟨listed, required⟩, rfl⟩
    refine ⟨rules, NameTable.get?_eq_some_iff.2 listed, ?_⟩
    simpa [RuleList.isRequired, Rule.criterion_eq_required_iff] using required
  · rintro ⟨rules, held, rule, member, asks⟩
    refine ⟨field, rules, ⟨NameTable.get?_eq_some_iff.1 held, ?_⟩, rfl⟩
    exact List.any_eq_true.2
      ⟨rule, member, by simpa [Rule.criterion_eq_required_iff] using asks⟩

/-- Required fields are looked for in ascending order of their names. -/
theorem pairwise_requiredFields
    (method : Method) :
    method.requiredFields.Pairwise (· < ·) := by
  rw [requiredFields, List.pairwise_map]
  exact method.rules.ascending.sublist List.filter_sublist

theorem firstMissing_of_find?
    {method : Method}
    {data : Row}
    {field : String}
    (found :
      method.requiredFields.find? (fun field => !(method.merged data).contains field) =
        some field) :
    method.FirstMissing data field := by
  rcases List.find?_eq_some_iff_append.1 found with ⟨absent, before, after, split, present⟩
  have missing : method.Missing data field := by
    refine ⟨mem_requiredFields_iff.1 ?_, by simpa [OrderedMap.contains] using absent⟩
    rw [split]
    exact List.mem_append_right before List.mem_cons_self
  refine ⟨missing, ?_⟩
  intro other alsoMissing earlier
  have ascending := method.pairwise_requiredFields
  have listed := mem_requiredFields_iff.2 alsoMissing.1
  rw [split] at ascending listed
  rcases List.mem_append.1 listed with front | back
  · have held : other ∈ (method.merged data).keys := by simpa using present other front
    exact alsoMissing.2 held
  · rcases List.mem_cons.1 back with same | later
    · exact String.lt_irrefl other (same ▸ earlier)
    · have behind := (List.pairwise_cons.1 (List.pairwise_append.1 ascending).2.1).1 other later
      exact String.lt_irrefl other (String.lt_trans earlier behind)

theorem not_missing_of_find?
    {method : Method}
    {data : Row}
    (found :
      method.requiredFields.find? (fun field => !(method.merged data).contains field) = none)
    (field : String) :
    ¬ method.Missing data field := by
  rintro ⟨required, absent⟩
  have present := List.find?_eq_none.1 found field (mem_requiredFields_iff.2 required)
  exact absent (by simpa using present)

/-- Either some field is the first required one without valid candidates, or every field passes. -/
theorem firstLacking_or_passed
    (method : Method)
    (data : Row) :
    (∃ before entry, method.FirstLacking data before entry) ∨
      ∀ entry ∈ (method.merged data).entries, ¬ method.Lacking entry := by
  classical
  cases found :
      (method.merged data).entries.find? fun entry => decide (method.Lacking entry) with
  | some entry =>
    rcases List.find?_eq_some_iff_append.1 found with ⟨lacking, before, after, split, passed⟩
    refine .inl ⟨before, entry, ⟨after, split⟩, ?_, by simpa using lacking⟩
    intro other listed
    simpa using passed other listed
  | none =>
    refine .inr ?_
    intro entry listed
    simpa using List.find?_eq_none.1 found entry listed

/-- The combinations of the product, with the templates applied, are the expected variations. -/
theorem map_combinations_productFields
    (method : Method)
    (options : Options)
    (data : Row)
    (groups : List String) :
    (Choices.combinations ⟨method.productFields options data⟩).map
        (Template.applyAll method.templates.entries groups) =
      method.expectedVariations options data groups := by
  rw [Choices.combinations_eq, expectedVariations, withTexts_eq_applyAll]
  by_cases empty : (method.productFields options data).entries = []
  · simp [Choices.isEmpty, OrderedMap.isEmpty, empty]
  · by_cases lacking : [] ∈ (method.productFields options data).values
    · simp [tuples_eq_nil_of_mem lacking, lacking]
    · simp [Choices.isEmpty, OrderedMap.isEmpty, empty, lacking, Function.comp_def]

/-- There are as many expected rows as the product of the candidate counts says. -/
theorem length_expectedVariations
    (method : Method)
    (options : Options)
    (data : Row)
    (groups : List String) :
    (method.expectedVariations options data groups).length =
      method.productSize options data := by
  rw [← map_combinations_productFields, List.length_map, Choices.length_combinations,
    productSize_eq_product]

/-- Every run ends in one of the four ways a run can conclude, with the data that belongs to it. -/
theorem concludes_generate
    (method : Method)
    (options : Options)
    (name : String)
    (data : Row)
    (groups : List String) :
    method.Concludes options name data groups
      (method.generate options name data groups) := by
  rw [generate, withDefaults_eq_merged]
  cases found :
      method.requiredFields.find? fun field => !(method.merged data).contains field with
  | some field => exact .missing (firstMissing_of_find? found)
  | none =>
    have complete := not_missing_of_find? found
    rcases method.firstLacking_or_passed data with ⟨before, entry, first⟩ | passed
    · rcases first.listed with ⟨after, split⟩
      have stopped :
          (Screening.ofFields method options (method.isDefaulted data)
            (method.merged data).entries).stoppedAt = some entry.1 := by
        rw [split, Screening.ofFields_of_lacking first.passed first.lacking]
      simp only [stopped]
      exact .lacking complete first
    · have stopped :
          (Screening.ofFields method options (method.isDefaulted data)
            (method.merged data).entries).stoppedAt = none := by
        rw [Screening.ofFields_of_pass passed]
      have choices :
          Choices.ofList
              (Screening.ofFields method options (method.isDefaulted data)
                (method.merged data).entries).kept =
            ⟨method.productFields options data⟩ := by
        rw [Screening.ofFields_of_pass passed, Screening.keptOf_merged, Choices.ofList,
          OrderedMap.ofList_entries]
      simp only [stopped, choices]
      cases refused :
          options.refuses
            (Choices.combinationCount ⟨method.productFields options data⟩) with
      | some limit =>
        rcases Option.filter_eq_some_iff.1 refused with ⟨limited, beyond⟩
        have exceeded := Choices.lt_combinationCount_iff.1 (of_decide_eq_true beyond)
        rw [← productSize_eq_product] at exceeded
        rw [Choices.combinationCount_eq_min, ← productSize_eq_product]
        exact .excessive complete passed limited exceeded
      | none =>
        have within :
            ∀ limit, options.limit = some limit →
              method.productSize options data ≤ limit.toNat := by
          intro limit limited
          have allowed := Option.filter_eq_none_iff.1 refused limit limited
          have notBeyond :=
            mt Choices.lt_combinationCount_iff.2 (by simpa using allowed)
          rw [productSize_eq_product]
          exact Nat.not_lt.1 notBeyond
        rw [map_combinations_productFields]
        exact .produced complete passed within

end Method

end Assortment
