import Assortment.Proofs.Run.Variations

/-!
# What decides the outcome of a run

The outcome of a run is decided by four questions, asked in a fixed order: whether the method is
registered, whether a required field is missing from the merged input, whether a required field is
left without a valid candidate, and whether there are more variations than the limit allows.  The
first two kinds of field are found in different orders, the missing ones by name and the lacking
ones by their place in the merged input.

`Method.Decided` says this for the runs of a method, with an equivalence for every kind of outcome
and with what the report of a failed run holds.  The equivalences follow from the four ways in which
a run concludes, because the conditions of these ways exclude each other.
-/

namespace Assortment.Method

variable
    {method : Method}
    {options : Options}
    {name : String}
    {data : Row}
    {groups : List String}

theorem FirstMissing.unique
    {left right : String}
    (leftFirst : method.FirstMissing data left)
    (rightFirst : method.FirstMissing data right) :
    left = right := by
  have notAfter : left ≤ right := String.not_lt.1 (leftFirst.2 right rightFirst.1)
  have notBefore : right ≤ left := String.not_lt.1 (rightFirst.2 left leftFirst.1)
  exact String.le_antisymm notAfter notBefore

theorem FirstLacking.mem_entries
    {before : List (String × Value)}
    {entry : String × Value}
    (first : method.FirstLacking data before entry) :
    entry ∈ (method.merged data).entries := by
  rcases first.listed with ⟨after, split⟩
  rw [split]
  exact List.mem_append_right before List.mem_cons_self

theorem FirstLacking.not_passed
    {before : List (String × Value)}
    {entry : String × Value}
    (first : method.FirstLacking data before entry) :
    ¬ ∀ other ∈ (method.merged data).entries, ¬ method.Lacking other := by
  intro passed
  exact passed entry first.mem_entries first.lacking

theorem FirstLacking.validCandidates_eq_nil
    {before : List (String × Value)}
    {entry : String × Value}
    {value : Value}
    (first : method.FirstLacking data before entry)
    (listed : (entry.1, value) ∈ (method.merged data).entries) :
    method.validCandidates entry.1 value = [] := by
  rw [OrderedMap.value_unique listed first.mem_entries]
  exact first.lacking.2

theorem FirstLacking.takeWhile_eq
    {before : List (String × Value)}
    {entry : String × Value}
    [DecidablePred method.Lacking]
    (first : method.FirstLacking data before entry) :
    ((method.merged data).entries.takeWhile fun other => !decide (method.Lacking other)) =
        before ∧
      ((method.merged data).entries.dropWhile fun other => !decide (method.Lacking other)).head? =
        some entry := by
  rcases first.listed with ⟨after, split⟩
  have passes : ∀ other ∈ before, (!decide (method.Lacking other)) = true := by
    intro other listed
    simpa using first.passed other listed
  rw [split, List.takeWhile_append_of_pos passes, List.dropWhile_append_of_pos passes]
  simp [first.lacking]

/-- At most one field is the first to lack candidates, and the fields before it are determined. -/
theorem FirstLacking.unique
    {leftBefore rightBefore : List (String × Value)}
    {left right : String × Value}
    (leftFirst : method.FirstLacking data leftBefore left)
    (rightFirst : method.FirstLacking data rightBefore right) :
    leftBefore = rightBefore ∧ left = right := by
  classical
  rcases leftFirst.takeWhile_eq with ⟨leftFront, leftHead⟩
  rcases rightFirst.takeWhile_eq with ⟨rightFront, rightHead⟩
  constructor
  · exact leftFront.symm.trans rightFront
  · exact Option.some.inj (leftHead.symm.trans rightHead)

/-- What decides the outcome of a run of a method, and what the reports of failures hold. -/
structure Decided
    (method : Method)
    (options : Options)
    (data : Row)
    (outcome : Except Failure Generated) :
    Prop where
  requiredField_iff :
    ∀ field,
      (∃ report, outcome = .error (.requiredField field report)) ↔
        method.FirstMissing data field ∨
          (∀ other, ¬ method.Missing data other) ∧
            ∃ before value, method.FirstLacking data before (field, value)
  tooManyVariations_iff :
    ∀ requested limit,
      (∃ report, outcome = .error (.tooManyVariations requested limit report)) ↔
        (∀ field, ¬ method.Missing data field) ∧
          (∀ entry ∈ (method.merged data).entries, ¬ method.Lacking entry) ∧
          options.limit = some limit ∧
          limit.toNat < method.productSize options data ∧
          requested = min (method.productSize options data) (2 ^ 128 - 1)
  ok_iff :
    (∃ generated, outcome = .ok generated) ↔
      (∀ field, ¬ method.Missing data field) ∧
        (∀ entry ∈ (method.merged data).entries, ¬ method.Lacking entry) ∧
        ∀ limit, options.limit = some limit → method.productSize options data ≤ limit.toNat
  error_report :
    ∀ failure, outcome = .error failure →
      ∃ report, failure.report? = some report ∧ report.variations = 0 ∧
        ((∃ field, failure = .requiredField field report) ∨
          ∃ requested limit, failure = .tooManyVariations requested limit report)
  /-- The field has no candidates in the report, and the only notice is about it. -/
  missing_report :
    ∀ field report, outcome = .error (.requiredField field report) →
      method.FirstMissing data field →
      report.fields =
          [{ field := field
             required := true
             defaulted := false
             candidates := 0
             accepted := 0
             rejections := [] }] ∧
        report.notices =
          [{ code := "required_field_missing"
             message := "required field '" ++ field ++ "' is absent and has no default"
             field := some field }] ∧
        report.noticeCounts.entries = [("required_field_missing", 1)]
  lacking_report :
    ∀ field report before value, outcome = .error (.requiredField field report) →
      (∀ other, ¬ method.Missing data other) →
      method.FirstLacking data before (field, value) →
      report.fields.map FieldSummary.field = Entries.keys before ++ [field]
  suppressed :
    ∀ field, method.Requires field →
      (∀ value, (field, value) ∈ (method.merged data).entries →
        method.validCandidates field value = []) →
      ∃ other report, outcome = .error (.requiredField other report)

/-- A screening that stops has summaries for the fields before the culprit and for the culprit. -/
theorem fields_screenedReport_of_firstLacking
    {before : List (String × Value)}
    {field : String}
    {value : Value}
    (first : method.FirstLacking data before (field, value)) :
    (method.screenedReport options name data groups).fields.map FieldSummary.field =
      Entries.keys before ++ [field] := by
  rcases first.listed with ⟨after, split⟩
  rw [fields_screenedReport, split, Screening.ofFields_of_lacking first.passed first.lacking]
  simp [Screening.summaryOf, summary, Entries.keys, Function.comp_def]

theorem variations_screenedReport :
    (method.screenedReport options name data groups).variations = 0 := by
  rw [screenedReport, RunReport.variations_recordScreening]
  rfl

/-- A field without a valid candidate is missing or has a lacking entry. -/
theorem missing_or_lacking
    {field : String}
    (required : method.Requires field)
    (invalid :
      ∀ value, (field, value) ∈ (method.merged data).entries →
        method.validCandidates field value = []) :
    method.Missing data field ∨
      ∃ entry ∈ (method.merged data).entries, method.Lacking entry := by
  by_cases present : field ∈ (method.merged data).keys
  · rcases List.mem_map.1 present with ⟨entry, listed, rfl⟩
    exact .inr ⟨entry, listed, required, invalid entry.2 listed⟩
  · exact .inl ⟨required, present⟩

/-- A run fails only for a field that the method requires. -/
theorem Concludes.requires
    {field : String}
    {report : RunReport}
    (concluded :
      method.Concludes options name data groups (.error (.requiredField field report))) :
    method.Requires field := by
  cases concluded with
  | missing first => exact first.1.1
  | lacking _ first => exact first.lacking.1

/-- A run that fails for a field of its merged input has no valid candidate for the field. -/
theorem Concludes.validCandidates_eq_nil
    {field : String}
    {report : RunReport}
    {value : Value}
    (concluded :
      method.Concludes options name data groups (.error (.requiredField field report)))
    (listed : (field, value) ∈ (method.merged data).entries) :
    method.validCandidates field value = [] := by
  cases concluded with
  | missing first => exact absurd (Entries.mem_keys_of_mem listed) first.1.2
  | lacking _ first => exact first.validCandidates_eq_nil listed

section Exclusion

variable {outcome : Except Failure Generated}

/-- The conditions of the four ways exclude each other, so a run concludes in one way only. -/
theorem Concludes.unique
    {other : Except Failure Generated}
    (left : method.Concludes options name data groups outcome)
    (right : method.Concludes options name data groups other) :
    outcome = other := by
  cases left with
  | missing first =>
    cases right with
    | missing otherFirst => rw [first.unique otherFirst]
    | lacking complete _ => exact absurd first.1 (complete _)
    | excessive complete _ _ _ => exact absurd first.1 (complete _)
    | produced complete _ _ => exact absurd first.1 (complete _)
  | lacking complete first =>
    cases right with
    | missing otherFirst => exact absurd otherFirst.1 (complete _)
    | lacking _ otherFirst =>
      rcases first.unique otherFirst with ⟨_, rfl⟩
      rfl
    | excessive _ passed _ _ => exact absurd passed first.not_passed
    | produced _ passed _ => exact absurd passed first.not_passed
  | excessive complete passed limited beyond =>
    cases right with
    | missing otherFirst => exact absurd otherFirst.1 (complete _)
    | lacking _ otherFirst => exact absurd passed otherFirst.not_passed
    | excessive _ _ otherLimited _ =>
      rw [limited] at otherLimited
      cases otherLimited
      rfl
    | produced _ _ within => exact absurd (within _ limited) (Nat.not_le.2 beyond)
  | produced complete passed within =>
    cases right with
    | missing otherFirst => exact absurd otherFirst.1 (complete _)
    | lacking _ otherFirst => exact absurd passed otherFirst.not_passed
    | excessive _ _ limited beyond => exact absurd (within _ limited) (Nat.not_le.2 beyond)
    | produced _ _ _ => rfl

/-- A run fails for a required field exactly when that field is the first missing one or, with none
missing, the first to lack candidates. -/
theorem Concludes.requiredField_iff
    (concluded : method.Concludes options name data groups outcome)
    (field : String) :
    (∃ report, outcome = .error (.requiredField field report)) ↔
      method.FirstMissing data field ∨
        (∀ other, ¬ method.Missing data other) ∧
          ∃ before value, method.FirstLacking data before (field, value) := by
  constructor
  · rintro ⟨report, rfl⟩
    cases concluded with
    | missing first => exact .inl first
    | lacking complete first => exact .inr ⟨complete, _, _, first⟩
  · rintro (first | ⟨complete, before, value, first⟩)
    · exact ⟨_, concluded.unique (.missing first)⟩
    · exact ⟨_, concluded.unique (.lacking complete first)⟩

/-- A run fails for too many rows exactly when every field passes and the limit is exceeded. -/
theorem Concludes.tooManyVariations_iff
    (concluded : method.Concludes options name data groups outcome)
    (requested : Nat)
    (limit : UInt64) :
    (∃ report, outcome = .error (.tooManyVariations requested limit report)) ↔
      (∀ field, ¬ method.Missing data field) ∧
        (∀ entry ∈ (method.merged data).entries, ¬ method.Lacking entry) ∧
        options.limit = some limit ∧
        limit.toNat < method.productSize options data ∧
        requested = min (method.productSize options data) (2 ^ 128 - 1) := by
  constructor
  · rintro ⟨report, rfl⟩
    cases concluded with
    | excessive complete passed limited beyond =>
      exact ⟨complete, passed, limited, beyond, rfl⟩
  · rintro ⟨complete, passed, limited, beyond, rfl⟩
    exact ⟨_, concluded.unique (.excessive complete passed limited beyond)⟩

/-- A run yields rows exactly when every field passes and no limit is exceeded. -/
theorem Concludes.ok_iff
    (concluded : method.Concludes options name data groups outcome) :
    (∃ generated, outcome = .ok generated) ↔
      (∀ field, ¬ method.Missing data field) ∧
        (∀ entry ∈ (method.merged data).entries, ¬ method.Lacking entry) ∧
        ∀ limit, options.limit = some limit →
          method.productSize options data ≤ limit.toNat := by
  constructor
  · rintro ⟨generated, rfl⟩
    cases concluded with
    | produced complete passed within => exact ⟨complete, passed, within⟩
  · rintro ⟨complete, passed, within⟩
    exact ⟨_, concluded.unique (.produced complete passed within)⟩

/-- Every failure carries a report that counts no rows. -/
theorem Concludes.error_report
    (concluded : method.Concludes options name data groups outcome)
    {failure : Failure}
    (failed : outcome = .error failure) :
    ∃ report, failure.report? = some report ∧ report.variations = 0 ∧
      ((∃ field, failure = .requiredField field report) ∨
        ∃ requested limit, failure = .tooManyVariations requested limit report) := by
  subst failed
  cases concluded with
  | missing _ => exact ⟨_, rfl, rfl, .inl ⟨_, rfl⟩⟩
  | lacking _ _ => exact ⟨_, rfl, variations_screenedReport, .inl ⟨_, rfl⟩⟩
  | excessive _ _ _ _ => exact ⟨_, rfl, variations_screenedReport, .inr ⟨_, _, rfl⟩⟩

theorem Concludes.missing_report
    (concluded : method.Concludes options name data groups outcome)
    {field : String}
    {report : RunReport}
    (failed : outcome = .error (.requiredField field report))
    (first : method.FirstMissing data field) :
    report = missingReport name groups field := by
  cases failed.symm.trans (concluded.unique (.missing first))
  rfl

theorem Concludes.lacking_report
    (concluded : method.Concludes options name data groups outcome)
    {field : String}
    {report : RunReport}
    {before : List (String × Value)}
    {value : Value}
    (failed : outcome = .error (.requiredField field report))
    (complete : ∀ other, ¬ method.Missing data other)
    (first : method.FirstLacking data before (field, value)) :
    report.fields.map FieldSummary.field = Entries.keys before ++ [field] := by
  cases failed.symm.trans (concluded.unique (.lacking complete first))
  exact fields_screenedReport_of_firstLacking first

/-- A required field without valid candidates keeps a run from yielding rows. -/
theorem Concludes.suppressed
    (concluded : method.Concludes options name data groups outcome)
    {field : String}
    (required : method.Requires field)
    (invalid :
      ∀ value, (field, value) ∈ (method.merged data).entries →
        method.validCandidates field value = []) :
    ∃ other report, outcome = .error (.requiredField other report) := by
  have without := missing_or_lacking required invalid
  cases concluded with
  | missing _ => exact ⟨_, _, rfl⟩
  | lacking _ _ => exact ⟨_, _, rfl⟩
  | excessive complete passed _ _ =>
    rcases without with missing | ⟨entry, listed, lacking⟩
    · exact absurd missing (complete field)
    · exact absurd lacking (passed entry listed)
  | produced complete passed _ =>
    rcases without with missing | ⟨entry, listed, lacking⟩
    · exact absurd missing (complete field)
    · exact absurd lacking (passed entry listed)

/-- The conclusion of a run decides its outcome as a whole. -/
theorem Concludes.decided
    (concluded : method.Concludes options name data groups outcome) :
    method.Decided options data outcome where
  requiredField_iff := concluded.requiredField_iff
  tooManyVariations_iff := concluded.tooManyVariations_iff
  ok_iff := concluded.ok_iff
  error_report := by
    intro failure failed
    exact concluded.error_report failed
  missing_report := by
    intro field report failed first
    rw [concluded.missing_report failed first]
    exact ⟨rfl, rfl, rfl⟩
  lacking_report := by
    intro field report before value failed complete first
    exact concluded.lacking_report failed complete first
  suppressed := by
    intro field required invalid
    exact concluded.suppressed required invalid

end Exclusion

end Assortment.Method

namespace Assortment.Catalogue

/--
The outcome of a run is that its method is unknown exactly when it is not registered, in which case
there is no report; the run of a registered method is decided by its merged input and the limit.
-/
theorem generate_decided
    (catalogue : Catalogue)
    (options : Options)
    (name : String)
    (data : Row)
    (groups : List String) :
    (∀ other,
      catalogue.generate options name data groups = .error (.unknownMethod other) ↔
        other = name ∧ catalogue.get? name = none) ∧
      (∀ other, (Failure.unknownMethod other).report? = none) ∧
      ∀ method, catalogue.get? name = some method →
        method.Decided options data (catalogue.generate options name data groups) := by
  refine ⟨?_, fun _ => rfl, ?_⟩
  · intro other
    rw [generate]
    cases catalogue.get? name with
    | none => simp [eq_comm]
    | some method =>
      have concluded := method.concludes_generate options name data groups
      constructor
      · intro failed
        rcases concluded.error_report failed with ⟨report, reported, _⟩
        cases reported
      · rintro ⟨_, impossible⟩
        cases impossible
  · intro method registered
    rw [generate_of_registered registered]
    exact (method.concludes_generate options name data groups).decided

end Assortment.Catalogue
