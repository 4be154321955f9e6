import Assortment.Proofs.Catalogue.DefaultWarnings
import Assortment.Proofs.Run.Outcome

/-!
# Defaults that raise no warning

Where the review of a document warns about no default of a method, every candidate of every default
passes the rules of its field.  So a default that has a candidate at all leaves one to the run that
it is injected into, and the run does not fail for want of it.

An empty list has no candidates.  There is nothing in it that a rule could reject, so it is declared
without a warning, and as the default of a required field it fails every run that it is injected
into.
-/

namespace Assortment

namespace Value

/-- Every value but the empty list offers a candidate. -/
theorem offered_eq_nil_iff
    {value : Value} :
    value.offered = [] ↔ value = .array [] := by
  cases value <;> simp [offered]

end Value

theorem RuleList.accepted_eq_candidates
    {rules : RuleList}
    {value : Value}
    (flawless : rules.rejections value = []) :
    rules.accepted value = value.candidates := by
  rw [accepted, List.filter_eq_self]
  intro candidate listed
  have passes := List.filterMap_eq_nil_iff.1 flawless candidate listed
  rw [accepts, Option.map_eq_none_iff.1 passes]
  rfl

/-- Where no fault is found with a default, all its candidates are valid for the resolved method. -/
theorem WrittenMethod.validCandidates_eq_offered
    {name field : String}
    {method : WrittenMethod}
    {value : Value}
    (flawless : method.defaultFindingsOf name field value = []) :
    method.resolved.validCandidates field value = value.offered := by
  have foretold := method.forall₂_foretells_rejections name field value
  rw [flawless] at foretold
  rw [← Method.accepted_rulesFor, ← Value.candidates_eq_offered]
  exact RuleList.accepted_eq_candidates (List.forall₂_nil_left_iff.1 foretold)

namespace Catalogue

variable
    {value : Value}
    {catalogue : Catalogue}
    {warnings : List Issue}
    {document : Document}
    {name : String}
    {method : Method}

/--
A default about which nothing was warned serves its field: all its candidates are valid, and no run
that it is injected into fails for the field, unless it is the empty list and the field is required.
That default offers nothing, and every run that it is injected into for a required field fails.
-/
theorem silent_default_serves
    (loaded : load value = .ok (catalogue, warnings))
    (read : Document.ofValue? value = some document)
    (silent : ∀ field, ∀ warning ∈ document.defaultWarnings name field, warning ∉ warnings)
    (registered : catalogue.get? name = some method)
    (options : Options)
    {data : Row}
    (groups : List String)
    {field : String}
    (known : field ∈ method.defaults.keys)
    (ungiven : ∀ value ∈ data.get? field, value = .null) :
    ∃ default,
      method.defaults.get? field = some default ∧
        method.validCandidates field default = default.offered ∧
        ((default = .array [] → ¬ method.Requires field) →
          ∀ report,
            catalogue.generate options name data groups ≠
              .error (.requiredField field report)) ∧
        (default = .array [] →
          method.Requires field →
            ∃ other report,
              catalogue.generate options name data groups =
                .error (.requiredField other report)) := by
  rcases exists_written_of_load loaded read registered with ⟨rfl, written, inDocument, rfl⟩
  rcases Method.exists_default_of_isDefaulted (Method.isDefaulted_iff.2 ⟨known, ungiven⟩) with
    ⟨default, declared, listed⟩
  have flawless : written.defaultFindingsOf name field default = [] := by
    rw [← Document.filter_isDefaultOf_findings inDocument
      (OrderedMap.get?_eq_some_iff.1 declared)]
    refine Document.filter_findings_eq_nil_of_silent ?_ (silent field)
    intro finding about
    exact Finding.isBlocking_of_isFailingDefault (Finding.isFailingDefault_of_isDefaultOf about)
  have valid := WrittenMethod.validCandidates_eq_offered flawless
  have concluded := written.resolved.concludes_generate options name data groups
  rw [generate_of_registered registered]
  refine ⟨default, declared, valid, ?serves, ?empty⟩
  case serves =>
    intro optional report failed
    rw [failed] at concluded
    have noneValid := concluded.validCandidates_eq_nil listed
    rw [valid] at noneValid
    exact optional (Value.offered_eq_nil_iff.1 noneValid) concluded.requires
  case empty =>
    rintro rfl required
    refine concluded.suppressed required ?_
    intro other alsoListed
    rw [OrderedMap.value_unique alsoListed listed, valid]
    rfl

/-- A method with a default of two valid candidates and one that is the empty list. -/
def switchDocument : Value :=
  .object
    [("config_version", .string "0.1"),
      ("methods", .object
        [("switch", .object
          [("rules", .object
            [("id", .string "required"), ("mode", .string "required|val[on,off]")]),
            ("defaults", .object
              [("mode", .array [.string "on", .string "off"]), ("id", .array [])])])])]

/-- A method with a required field whose default is a list without items. -/
def switchMethod : Method :=
  (((Method.empty.withRules "id" "required").withRules "mode" "required|val[on,off]").withDefault
    "mode" (.array [.string "on", .string "off"])).withDefault "id" (.array [])

/-- An input with a null for one field and without the other. -/
def switchInput : Row where
  entries := [("mode", .null), ("place", .string "hall")]

theorem load_switchDocument :
    ((load switchDocument).toOption.bind fun loaded =>
      (loaded.1.get? "switch").map fun held => (loaded.2, held)) = some ([], switchMethod) := by
  decide +kernel

/-- A default the loader does not warn about stands in for a field, and the run goes on. -/
theorem switch_default_serves :
    ∃ catalogue document,
      load switchDocument = .ok (catalogue, []) ∧
        Document.ofValue? switchDocument = some document ∧
        (∀ field, ∀ warning ∈ document.defaultWarnings "switch" field, warning ∉ []) ∧
        catalogue.get? "switch" = some switchMethod ∧
        "mode" ∈ switchMethod.defaults.keys ∧
        (∀ value ∈ switchInput.get? "mode", value = .null) ∧
        ∀ report,
          catalogue.generate {} "switch" switchInput [] ≠
            .error (.requiredField "mode" report) := by
  rcases exists_loaded_of_eq load_switchDocument with
    ⟨catalogue, document, loaded, read, registered⟩
  have silent :
      ∀ field, ∀ warning ∈ document.defaultWarnings "switch" field, warning ∉ [] := by
    simp
  have injected : switchMethod.isDefaulted switchInput "mode" = true := by decide +kernel
  rcases Method.isDefaulted_iff.1 injected with ⟨known, ungiven⟩
  have held :
      switchMethod.defaults.get? "mode" = some (.array [.string "on", .string "off"]) := by
    decide +kernel
  rcases silent_default_serves loaded read silent registered {} [] known ungiven with
    ⟨default, declared, _, serves, _⟩
  rw [held] at declared
  cases declared
  exact ⟨catalogue, document, loaded, read, silent, registered, known, ungiven,
    serves (by simp)⟩

/-- An empty list is a default that raises no warning, and the run fails for the field that it is
injected for. -/
theorem empty_default_fails_run :
    ∃ catalogue document report,
      load switchDocument = .ok (catalogue, []) ∧
        Document.ofValue? switchDocument = some document ∧
        (∀ field, ∀ warning ∈ document.defaultWarnings "switch" field, warning ∉ []) ∧
        catalogue.get? "switch" = some switchMethod ∧
        "id" ∈ switchMethod.defaults.keys ∧
        (∀ value ∈ switchInput.get? "id", value = .null) ∧
        catalogue.generate {} "switch" switchInput [] =
          .error (.requiredField "id" report) := by
  rcases exists_loaded_of_eq load_switchDocument with
    ⟨catalogue, document, loaded, read, registered⟩
  have injected : switchMethod.isDefaulted switchInput "id" = true := by decide +kernel
  rcases Method.isDefaulted_iff.1 injected with ⟨known, ungiven⟩
  have failed :
      switchMethod.generate {} "switch" switchInput [] =
        .error (.requiredField "id"
          (switchMethod.screenedReport {} "switch" switchInput [])) := by
    decide +kernel
  rw [← generate_of_registered registered] at failed
  exact ⟨catalogue, document, _, loaded, read, by simp, registered, known, ungiven, failed⟩

end Catalogue

end Assortment
