import Assortment.Proofs.Run.Outcome

/-!
# A limit is a guard

A run with a limit is the run without it, followed by one look at the number of variations.  The
limit takes part in nothing else: the input is merged and screened in the same way, a failure stays
the failure it is, and the variations of a run that stays within the limit are all produced.

The number that a run compares with its limit is the saturating count.  It is cut off far above
every limit, so it exceeds the limit exactly when the number of variations does.
-/

namespace Assortment

/-- What a limit makes of a run that succeeds without one. -/
def Generated.guarded (limit : UInt64) (generated : Generated) : Except Failure Generated :=
  if limit.toNat < generated.variations.length then
    .error (.tooManyVariations (min generated.variations.length (2 ^ 128 - 1)) limit
      { generated.report with variations := 0 })
  else
    .ok generated

theorem RunReport.eq_of_variations_eq_zero
    {report : RunReport}
    (blank : report.variations = 0) :
    { report with variations := 0 } = report := by
  cases report
  cases blank
  rfl

namespace Method

variable
    {method : Method}
    {options : Options}
    {name : String}
    {data : Row}
    {groups : List String}

theorem screenedReport_congr
    {other : Options}
    (same : options.dropEmptyOptional = other.dropEmptyOptional) :
    method.screenedReport options name data groups =
      method.screenedReport other name data groups := by
  rw [screenedReport, screenedReport, Screening.ofFields_congr same]

/-- However a run concludes without a limit, guarding what comes of it is how the run concludes
with the limit. -/
theorem Concludes.guarded
    {outcome : Except Failure Generated}
    (concluded : method.Concludes { options with limit := none } name data groups outcome)
    (limit : UInt64) :
    method.Concludes { options with limit := some limit } name data groups
      (outcome.bind (Generated.guarded limit)) := by
  -- The options differ in nothing but the limit, and so do all conditions of a conclusion.
  have sameReport :
      method.screenedReport { options with limit := none } name data groups =
        method.screenedReport { options with limit := some limit } name data groups :=
    screenedReport_congr rfl
  cases concluded with
  | missing first => exact .missing first
  | lacking complete first =>
    rw [sameReport]
    exact .lacking complete first
  | excessive _ _ limited _ => cases limited
  | produced complete passed _ =>
    have counted := method.length_expectedVariations { options with limit := none } data groups
    rw [Except.bind, Generated.guarded, sameReport]
    split
    · next beyond =>
      rw [counted] at beyond ⊢
      rw [RunReport.eq_of_variations_eq_zero variations_screenedReport]
      exact .excessive complete passed rfl beyond
    · next within =>
      refine .produced complete passed ?_
      rintro _ ⟨⟩
      rw [counted] at within
      exact Nat.not_lt.1 within

end Method

/--
A run with a limit is the run without one, guarded by the limit: it is refused when more variations
than the limit would be produced, however many these are, and is left as it is otherwise.
-/
theorem Catalogue.generate_limited
    (catalogue : Catalogue)
    (options : Options)
    (limit : UInt64)
    (name : String)
    (data : Row)
    (groups : List String) :
    catalogue.generate { options with limit := some limit } name data groups =
      (catalogue.generate { options with limit := none } name data groups).bind
        (Generated.guarded limit) := by
  rw [generate, generate]
  cases catalogue.get? name with
  | none => rfl
  | some method =>
    have unlimited := method.concludes_generate { options with limit := none } name data groups
    have limited := method.concludes_generate { options with limit := some limit } name data groups
    exact limited.unique (unlimited.guarded limit)

end Assortment
