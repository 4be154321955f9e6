import Assortment.Proofs.Run.Outcome
import Assortment.Proofs.Template.Dependence

/-!
# Runs for other groups

The names of the groups reach a run at two places: the report carries them, and the templates may
mention them.  A method whose templates do not mention the groups produces the same for all groups,
whatever the input holds.  In particular a value that looks like the placeholder of the groups is not
read as one, neither when it is put into a template nor when the output of one template is put into
another.

Only the texts of the templates are asked about.  The placeholder of the groups is known in every
row, and it is not chosen because nothing that is put in is looked at again.
-/

namespace Assortment

/-- The report of the same run for other groups. -/
def RunReport.forGroups (groups : List String) (report : RunReport) : RunReport :=
  { report with groups := groups }

namespace Failure

/-- A failure with its report changed. -/
def mapReport (change : RunReport → RunReport) : Failure → Failure
  | unknownMethod method => unknownMethod method
  | requiredField field report => requiredField field (change report)
  | tooManyVariations requested limit report => tooManyVariations requested limit (change report)

end Failure

/-- What comes of a run, with the report changed and all else left as it is. -/
def Outcome.mapReport (change : RunReport → RunReport) :
    Except Failure Generated → Except Failure Generated
  | .ok generated => .ok { generated with report := change generated.report }
  | .error failure => .error (failure.mapReport change)

namespace RunReport

theorem forGroups_recordScreening
    (groups : List String)
    (report : RunReport)
    (screening : Screening) :
    (report.recordScreening screening).forGroups groups =
      (report.forGroups groups).recordScreening screening := by
  rw [recordScreening_eq, recordScreening_eq]
  rfl

theorem forGroups_withVariations
    (groups : List String)
    (report : RunReport)
    (count : Nat) :
    { report with variations := count }.forGroups groups =
      { report.forGroups groups with variations := count } := rfl

end RunReport

namespace Method

variable
    {method : Method}
    {options : Options}
    {name : String}
    {data : Row}
    {groups : List String}

/-- No template of the method mentions the active groups. -/
def GroupFree (method : Method) : Prop :=
  ∀ template ∈ method.templates.entries,
    ¬ Placeholder.Occurs "activeGroups" template.2.toList

instance (method : Method) : Decidable method.GroupFree :=
  inferInstanceAs (Decidable (∀ template ∈ method.templates.entries, _))

/-- A screened report for other groups differs only in the groups it names. -/
theorem forGroups_screenedReport
    (method : Method)
    (options : Options)
    (name : String)
    (data : Row)
    (groups others : List String) :
    (method.screenedReport options name data groups).forGroups others =
      method.screenedReport options name data others := by
  rw [screenedReport, RunReport.forGroups_recordScreening]
  rfl

/-- The rows of a method that never writes the groups do not depend on them. -/
theorem GroupFree.expectedVariations_eq
    (free : method.GroupFree)
    (options : Options)
    (data : Row)
    (groups others : List String) :
    method.expectedVariations options data groups =
      method.expectedVariations options data others := by
  have sameTexts :
      Template.applyAll method.templates.entries groups =
        Template.applyAll method.templates.entries others :=
    funext (Template.applyAll_eq_of_groups_absent free groups others)
  rw [expectedVariations, expectedVariations, withTexts_eq_applyAll, withTexts_eq_applyAll,
    sameTexts]

/-- However a run for some groups concludes, the run for others concludes in the same way. -/
theorem Concludes.forGroups
    {outcome : Except Failure Generated}
    (concluded : method.Concludes options name data groups outcome)
    (free : method.GroupFree)
    (others : List String) :
    method.Concludes options name data others
      (Outcome.mapReport (RunReport.forGroups others) outcome) := by
  have reports := method.forGroups_screenedReport options name data groups others
  cases concluded with
  | missing first => exact .missing first
  | lacking complete first =>
    rw [Outcome.mapReport, Failure.mapReport, reports]
    exact .lacking complete first
  | excessive complete passed limited beyond =>
    rw [Outcome.mapReport, Failure.mapReport, reports]
    exact .excessive complete passed limited beyond
  | produced complete passed within =>
    rw [Outcome.mapReport, RunReport.forGroups_withVariations, reports,
      free.expectedVariations_eq options data groups others]
    exact .produced complete passed within

end Method

/--
A run of a method whose templates do not mention the groups comes to the same for any other groups,
up to the groups that its report names, whatever the input holds.
-/
theorem Catalogue.generate_forGroups
    {catalogue : Catalogue}
    {name : String}
    (free : ∀ method, catalogue.get? name = some method → method.GroupFree)
    (options : Options)
    (data : Row)
    (groups others : List String) :
    catalogue.generate options name data others =
      Outcome.mapReport (RunReport.forGroups others)
        (catalogue.generate options name data groups) := by
  rw [generate, generate]
  cases registered : catalogue.get? name with
  | none => rfl
  | some method =>
    have concluded := method.concludes_generate options name data groups
    have otherConcluded := method.concludes_generate options name data others
    exact otherConcluded.unique (concluded.forGroups (free method registered) others)

/-- A method with a template that puts in the output of another one. -/
def echoMethod : Method :=
  (Method.empty.withTemplate "label" "<\x7bname\x7d>").withTemplate "summary" "\x7blabel\x7d!"

def echoCatalogue : Catalogue :=
  Catalogue.empty.register "echo" echoMethod

/-- An input with values that look like placeholders. -/
def echoInput : Row where
  entries := [("name", .array [.string "\x7bactiveGroups\x7d", .string "\x7blabel\x7d"])]

/-- A run for one group and for two: the values spell the groups' placeholder, yet no row changes.
-/
theorem echo_generate_forGroups :
    (∀ method, echoCatalogue.get? "echo" = some method → method.GroupFree) ∧
      (echoCatalogue.generate {} "echo" echoInput ["a"]).toOption.map
          (fun generated => generated.variations.map fun row => row.get? "summary") =
        some
          [some (.string "<\x7bactiveGroups\x7d>!"), some (.string "<\x7blabel\x7d>!")] ∧
      echoCatalogue.generate {} "echo" echoInput ["b", "c"] =
        Outcome.mapReport (RunReport.forGroups ["b", "c"])
          (echoCatalogue.generate {} "echo" echoInput ["a"]) := by
  have registered : echoCatalogue.get? "echo" = some echoMethod := by decide +kernel
  have free : ∀ method, echoCatalogue.get? "echo" = some method → method.GroupFree := by
    intro method held
    rw [registered] at held
    cases held
    decide +kernel
  exact ⟨free, by decide +kernel, Catalogue.generate_forGroups free {} echoInput ["a"] ["b", "c"]⟩

end Assortment
