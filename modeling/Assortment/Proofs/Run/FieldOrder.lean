import Assortment.Proofs.Run.Outcome
import Assortment.Proofs.Template.Dependence

/-!
# The order of the fields

Two inputs with the same content hold the same entries, perhaps in different orders.  Their runs
come to the same kind of outcome.  Merging, screening and combining look at one field at a time, so
the merged inputs, the summaries, the notices and the fields of the product are those of the other
run in another order, and so are the rows, each of them with its fields in another order.  The
templates find the same texts in rows of the same content, and counting does not depend on the order
at all.

Only which required field a failed run names may differ, because a run names the first one that is
left without a valid candidate.
-/

namespace Assortment

/-- Reports that list the same summaries and the same notices, perhaps in different orders. -/
structure RunReport.SameUpToOrder (left right : RunReport) : Prop where
  method : left.method = right.method
  groups : left.groups = right.groups
  fields : left.fields.Perm right.fields
  variations : left.variations = right.variations
  noticeCounts : left.noticeCounts = right.noticeCounts
  notices : left.notices.Perm right.notices

/-- Outcomes of one kind that list the same things, perhaps in different orders.  The rows are
compared by their contents. -/
inductive Outcome.SameUpToOrder :
    Except Failure Generated → Except Failure Generated → Prop
  | unknownMethod
      (method : String) :
      SameUpToOrder (.error (.unknownMethod method)) (.error (.unknownMethod method))
  | requiredField
      (field other : String)
      (report otherReport : RunReport) :
      SameUpToOrder
        (.error (.requiredField field report))
        (.error (.requiredField other otherReport))
  | tooManyVariations
      (requested : Nat)
      (limit : UInt64)
      {report otherReport : RunReport}
      (reports : report.SameUpToOrder otherReport) :
      SameUpToOrder
        (.error (.tooManyVariations requested limit report))
        (.error (.tooManyVariations requested limit otherReport))
  | produced
      {left right : Generated}
      (variations :
        (left.variations.map OrderedMap.content).Perm (right.variations.map OrderedMap.content))
      (reports : left.report.SameUpToOrder right.report) :
      SameUpToOrder (.ok left) (.ok right)

namespace Choices

/-- Choices of the same content have the same combinations up to order. -/
theorem perm_combinations
    {left right : Choices}
    (same : left.fields.content = right.fields.content) :
    (left.combinations.map OrderedMap.content).Perm
      (right.combinations.map OrderedMap.content) := by
  have arranged := OrderedMap.content_eq_iff_perm.1 same
  have sameEmpty : left.isEmpty = right.isEmpty := arranged.isEmpty_eq
  have sections :
      ((tuples left.fields.values).map fun tuple => (left.fields.withValues tuple).content).Perm
        ((tuples right.fields.values).map fun tuple =>
          (right.fields.withValues tuple).content) := by
    rw [← Multiset.coe_eq_coe, OrderedMap.coe_map_content_withValues,
      OrderedMap.coe_map_content_withValues, same]
  rw [combinations_eq, combinations_eq, sameEmpty]
  split
  · exact .refl _
  · rw [List.map_map, List.map_map]
    exact sections

end Choices

namespace Template

/-- Writing templates into rows keeps them the same up to order. -/
theorem perm_map_applyAll
    {left right : List Row}
    (arranged : (left.map OrderedMap.content).Perm (right.map OrderedMap.content))
    (templates : List (String × String))
    (groups : List String) :
    ((left.map (applyAll templates groups)).map OrderedMap.content).Perm
      ((right.map (applyAll templates groups)).map OrderedMap.content) := by
  -- The content of a written row is a function of the content of the row.
  have factors :
      (fun row => (applyAll templates groups row).content).FactorsThrough OrderedMap.content :=
    fun _ _ same => content_applyAll_congr same groups
  rcases (Function.factorsThrough_iff _).1 factors with ⟨write, written⟩
  have rewritten (rows : List Row) :
      (rows.map (applyAll templates groups)).map OrderedMap.content =
        (rows.map OrderedMap.content).map write := by
    rw [List.map_map, List.map_map, ← written]
    rfl
  rw [rewritten, rewritten]
  exact arranged.map write

end Template

namespace RunReport

theorem tally_right_comm
    (counts : NameTable Nat)
    (first second : Notice) :
    tally (tally counts first) second = tally (tally counts second) first := by
  apply NameTable.ext_get?
  intro code
  simp only [tally, NameTable.get?_insert]
  by_cases sameCode : first.code = second.code
  · simp [sameCode]
  · by_cases isFirst : first.code = code
    · subst isFirst
      simp [Ne.symm sameCode]
    · simp [isFirst, sameCode]

/-- Recording screenings that are the same up to order gives reports that are. -/
theorem SameUpToOrder.recordScreening
    {left right : Screening}
    (report : RunReport)
    (summaries : left.summaries.Perm right.summaries)
    (notices : left.notices.Perm right.notices) :
    (report.recordScreening left).SameUpToOrder (report.recordScreening right) := by
  rw [recordScreening_eq, recordScreening_eq]
  exact
    { method := rfl
      groups := rfl
      fields := summaries.append_left report.fields
      variations := rfl
      noticeCounts :=
        notices.foldl_eq' (fun first _ second _ counts => tally_right_comm counts first second) _
      notices := notices.append_left report.notices }

end RunReport

namespace Method

variable
    {method : Method}
    {options : Options}
    {name : String}
    {data other : Row}
    {groups : List String}

theorem content_merged_congr
    (method : Method)
    (same : data.content = other.content) :
    (method.merged data).content = (method.merged other).content := by
  rw [OrderedMap.content_eq_iff_perm] at same ⊢
  have sameKeys : ∀ key, key ∈ data.keys ↔ key ∈ other.keys :=
    fun _ => (same.map Prod.fst).mem_iff
  have sameAbsent :
      absent method.defaults.entries data.keys = absent method.defaults.entries other.keys := by
    apply List.filter_congr
    intro entry _
    simp [sameKeys]
  exact (same.map _).append (List.Perm.of_eq sameAbsent)

theorem isDefaulted_congr
    (same : data.content = other.content) :
    method.isDefaulted data = method.isDefaulted other := by
  funext field
  rw [isDefaulted, isDefaulted, OrderedMap.content_eq_iff.1 same]

section Merged

variable (same : (method.merged data).content = (method.merged other).content)

include same

theorem not_missing_congr
    (complete : ∀ field, ¬ method.Missing data field)
    (field : String) :
    ¬ method.Missing other field := by
  have arranged := OrderedMap.content_eq_iff_perm.1 same
  rintro ⟨required, absent⟩
  refine complete field ⟨required, mt ?_ absent⟩
  exact (arranged.map Prod.fst).mem_iff.1

theorem not_lacking_congr
    (passed : ∀ entry ∈ (method.merged data).entries, ¬ method.Lacking entry) :
    ∀ entry ∈ (method.merged other).entries, ¬ method.Lacking entry := by
  intro entry listed
  exact passed entry ((OrderedMap.content_eq_iff_perm.1 same).mem_iff.2 listed)

theorem content_productFields_congr
    (options : Options) :
    (method.productFields options data).content = (method.productFields options other).content := by
  rw [OrderedMap.content_eq_iff_perm] at same ⊢
  exact (same.map _).filter _

/-- Reordering the input reorders the expected rows, and the entries within each. -/
theorem perm_expectedVariations
    (options : Options)
    (groups : List String) :
    ((method.expectedVariations options data groups).map OrderedMap.content).Perm
      ((method.expectedVariations options other groups).map OrderedMap.content) := by
  rw [← map_combinations_productFields, ← map_combinations_productFields]
  apply Template.perm_map_applyAll
  exact Choices.perm_combinations (content_productFields_congr same options)

theorem productSize_congr
    (options : Options) :
    method.productSize options data = method.productSize options other := by
  rw [productSize_eq_product, productSize_eq_product]
  exact Choices.product_congr (content_productFields_congr same options)

end Merged

/-- Inputs with the same merged content and the same defaulted fields have the same reports up to
order, if they pass the screening. -/
theorem screenedReport_sameUpToOrder
    (options : Options)
    (name : String)
    (groups : List String)
    (same : (method.merged data).content = (method.merged other).content)
    (sameDefaulted : method.isDefaulted data = method.isDefaulted other)
    (passed : ∀ entry ∈ (method.merged data).entries, ¬ method.Lacking entry) :
    (method.screenedReport options name data groups).SameUpToOrder
      (method.screenedReport options name other groups) := by
  have arranged := OrderedMap.content_eq_iff_perm.1 same
  rw [screenedReport, screenedReport, sameDefaulted, Screening.ofFields_of_pass passed,
    Screening.ofFields_of_pass (not_lacking_congr same passed)]
  exact .recordScreening _ (arranged.map _) (arranged.flatMap_right _)

/-- A required field without a valid candidate in the one input fails the run on the other. -/
theorem Concludes.requiredField_of_other
    {outcome : Except Failure Generated}
    (concluded : method.Concludes options name other groups outcome)
    (same : (method.merged data).content = (method.merged other).content)
    {field : String}
    (required : method.Requires field)
    (invalid :
      ∀ value, (field, value) ∈ (method.merged data).entries →
        method.validCandidates field value = []) :
    ∃ named report, outcome = .error (.requiredField named report) := by
  refine concluded.suppressed required ?_
  intro value listed
  exact invalid value ((OrderedMap.content_eq_iff_perm.1 same).mem_iff.2 listed)

/-- A run looks at its input through the merged input and through which fields are defaulted. -/
theorem Concludes.sameUpToOrder_of_merged
    {left right : Except Failure Generated}
    (same : (method.merged data).content = (method.merged other).content)
    (sameDefaulted : method.isDefaulted data = method.isDefaulted other)
    (concluded : method.Concludes options name data groups left)
    (otherConcluded : method.Concludes options name other groups right) :
    Outcome.SameUpToOrder left right := by
  cases concluded with
  | missing first =>
    rcases otherConcluded.requiredField_of_other same first.1.1
      fun _ listed => absurd (Entries.mem_keys_of_mem listed) first.1.2 with ⟨named, report, rfl⟩
    exact .requiredField _ _ _ _
  | lacking complete first =>
    rcases otherConcluded.requiredField_of_other same first.lacking.1
      fun _ listed => first.validCandidates_eq_nil listed with ⟨named, report, rfl⟩
    exact .requiredField _ _ _ _
  | excessive complete passed limited beyond =>
    have sameSize := productSize_congr same options
    rw [sameSize] at beyond ⊢
    rw [otherConcluded.unique
      (.excessive (not_missing_congr same complete) (not_lacking_congr same passed) limited
        beyond)]
    exact .tooManyVariations _ _
      (screenedReport_sameUpToOrder _ name groups same sameDefaulted passed)
  | produced complete passed within =>
    have sameSize := productSize_congr same options
    rw [sameSize] at within
    rw [otherConcluded.unique
      (.produced (not_missing_congr same complete) (not_lacking_congr same passed) within)]
    have arranged := perm_expectedVariations same options groups
    have reports := screenedReport_sameUpToOrder options name groups same sameDefaulted passed
    exact .produced arranged
      { reports with variations := by simpa only [List.length_map] using arranged.length_eq }

/-- Runs over inputs of the same content conclude in the same way, up to order. -/
theorem Concludes.sameUpToOrder
    {left right : Except Failure Generated}
    (same : data.content = other.content)
    (concluded : method.Concludes options name data groups left)
    (otherConcluded : method.Concludes options name other groups right) :
    Outcome.SameUpToOrder left right :=
  concluded.sameUpToOrder_of_merged (method.content_merged_congr same) (isDefaulted_congr same)
    otherConcluded

end Method

/--
The order of the fields of an input does not matter: two inputs with the same content come to
outcomes of one kind, which list the same rows, summaries and notices up to order.
-/
theorem Catalogue.generate_sameUpToOrder
    {data other : Row}
    (same : data.content = other.content)
    (catalogue : Catalogue)
    (options : Options)
    (name : String)
    (groups : List String) :
    Outcome.SameUpToOrder
      (catalogue.generate options name data groups)
      (catalogue.generate options name other groups) := by
  rw [generate, generate]
  cases catalogue.get? name with
  | none => exact .unknownMethod name
  | some method =>
    exact Method.Concludes.sameUpToOrder same
      (method.concludes_generate options name data groups)
      (method.concludes_generate options name other groups)

/-- The input for the drill with its last field in front. -/
def turnedDrillInput : Row :=
  OrderedMap.ofList
    [("fn", .array [.int 1, .string "x", .int 2]), ("nf", .null),
      ("name", .array [.string "A", .string "B"])]

/-- An input and its reversal, which differ, give the same outcome up to order. -/
theorem drill_generate_turned :
    drillInput ≠ turnedDrillInput ∧
      drillInput.content = turnedDrillInput.content ∧
      Outcome.SameUpToOrder
        (Catalogue.standard.generate {} "drill" drillInput ["g"])
        (Catalogue.standard.generate {} "drill" turnedDrillInput ["g"]) := by
  have same : drillInput.content = turnedDrillInput.content := by decide +kernel
  exact ⟨by decide +kernel, same,
    Catalogue.generate_sameUpToOrder same Catalogue.standard {} "drill" ["g"]⟩

end Assortment
