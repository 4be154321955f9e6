import Assortment.Proofs.Run.Defaults
import Assortment.Proofs.Tuples

/-!
# What a run is expected to produce

This file says what the variations of a run are without saying how they are found.  The candidates
of each field of the merged input are narrowed to the valid ones, fields without any are left out
if the options ask for it, and every tuple of the remaining candidates gives one row, into which
the templates write their texts.

Nothing here follows the steps of a run: no field is screened before another, nothing is counted
and no position is kept.  The rows can also be told by the places of their candidates: they are
those of all tuples of places, and these follow each other in the lexicographic order.
-/

namespace Assortment

/-- What a value offers: the elements of an array, and otherwise the value itself. -/
def Value.offered : Value → List Value
  | .array elements => elements
  | value => [value]

/-- The candidates a run takes from a value are the values it offers. -/
theorem Value.candidates_eq_offered
    (value : Value) :
    value.candidates = value.offered := by
  cases value <;> rfl

/-- The rule that asks for a value is known by its name, whatever its parameter is. -/
theorem Rule.criterion_eq_required_iff
    {rule : Rule} :
    rule.criterion = .required ↔ rule.name = "required" := by
  rw [criterion, Criterion.ofParts]
  by_cases named : rule.name = "required"
  · simp [named]
  · rw [if_neg named]
    split_ifs <;> simp [named]

namespace Method

/-- A candidate is valid for a field when it passes each rule of the field, if the field has any. -/
def Valid (method : Method) (field : String) (candidate : Value) : Prop :=
  ∀ rules ∈ method.rules.get? field, ∀ rule ∈ rules.rules, rule.accepts candidate = true

instance (method : Method) (field : String) (candidate : Value) :
    Decidable (method.Valid field candidate) :=
  inferInstanceAs
    (Decidable (∀ rules ∈ method.rules.get? field, ∀ rule ∈ rules.rules,
      rule.accepts candidate = true))

/-- The valid candidates of a value, in order. -/
def validCandidates (method : Method) (field : String) (value : Value) : List Value :=
  value.offered.filter fun candidate => decide (method.Valid field candidate)

/-- The fields of the product with their valid candidates, in the order of the merged input. -/
def productFields (method : Method) (options : Options) (data : Row) :
    OrderedMap (List Value) :=
  ((method.merged data).mapValues method.validCandidates).filter fun _ candidates =>
    !(options.dropEmptyOptional && candidates.isEmpty)

/-- A row into which the templates write their texts, each for the row as the ones before it left
it. -/
def withTexts (method : Method) (groups : List String) (row : Row) : Row :=
  method.templates.entries.foldl
    (fun written template =>
      written.insert template.1 (.string (Template.expand template.2 written groups)))
    row

/-- The rows that a run is expected to produce, in order. -/
def expectedVariations
    (method : Method)
    (options : Options)
    (data : Row)
    (groups : List String) :
    List Row :=
  let fields := method.productFields options data
  if fields.entries = [] ∨ [] ∈ fields.values then
    []
  else
    (tuples fields.values).map fun tuple => method.withTexts groups (fields.withValues tuple)

/-- Rows that are given by the places of their candidates, in the lexicographic order of these: one
row for every choice of a place in each list of candidates, and none if there are no fields. -/
def ListsByPlaces
    (method : Method)
    (options : Options)
    (data : Row)
    (groups : List String)
    (rows : List Row) :
    Prop :=
  let fields := method.productFields options data
  ∃ choices : List (List Nat),
    choices.Pairwise (List.Lex (· < ·)) ∧
      (∀ places, places ∈ choices ↔
        fields.entries ≠ [] ∧
          List.Forall₂ (fun place candidates => place < List.length candidates) places
            fields.values) ∧
      rows =
        choices.map fun places =>
          method.withTexts groups (fields.withValues (itemsAt fields.values places))

/-- A field is required when its rules include the one of that name. -/
def Requires (method : Method) (field : String) : Prop :=
  ∃ rules ∈ method.rules.get? field, ∃ rule ∈ rules.rules, rule.name = "required"

/-- An entry that leaves a required field without a valid candidate. -/
def Lacking (method : Method) (entry : String × Value) : Prop :=
  method.Requires entry.1 ∧ method.validCandidates entry.1 entry.2 = []

/-- The rules declared for a field accept exactly the candidates that are valid for it. -/
theorem accepts_rulesFor_iff
    {method : Method}
    {field : String}
    {candidate : Value} :
    (method.rulesFor field).accepts candidate = true ↔ method.Valid field candidate := by
  rw [RuleList.accepts_iff, rulesFor, rulesFor?, Valid]
  cases method.rules.get? field <;> simp [RuleList.empty]

/-- The candidates the rules of a field let through are its valid ones, in the order offered. -/
theorem accepted_rulesFor
    (method : Method)
    (field : String)
    (value : Value) :
    (method.rulesFor field).accepted value = method.validCandidates field value := by
  rw [RuleList.accepted, Value.candidates_eq_offered]
  apply List.filter_congr
  intro candidate _
  apply Bool.eq_iff_iff.2
  rw [decide_eq_true_iff, accepts_rulesFor_iff]

theorem isRequired_rulesFor_iff
    {method : Method}
    {field : String} :
    (method.rulesFor field).isRequired = true ↔ method.Requires field := by
  rw [rulesFor, rulesFor?, Requires]
  cases method.rules.get? field <;>
    simp [RuleList.isRequired, RuleList.empty, Rule.criterion_eq_required_iff]

/-- The product has the entries of the merged input that are not dropped, with what is valid. -/
theorem entries_productFields
    (method : Method)
    (options : Options)
    (data : Row) :
    (method.productFields options data).entries =
      ((method.merged data).entries.filter fun entry =>
          !(options.dropEmptyOptional &&
            (method.validCandidates entry.1 entry.2).isEmpty)).map fun entry =>
        (entry.1, method.validCandidates entry.1 entry.2) :=
  List.filter_map

/-- The texts are written as a run writes them. -/
theorem withTexts_eq_applyAll
    (method : Method)
    (groups : List String) :
    method.withTexts groups = Template.applyAll method.templates.entries groups := rfl

/-- The expected variations are given by the places of their candidates. -/
theorem listsByPlaces_expectedVariations
    (method : Method)
    (options : Options)
    (data : Row)
    (groups : List String) :
    method.ListsByPlaces options data groups
      (method.expectedVariations options data groups) := by
  rw [ListsByPlaces, expectedVariations]
  by_cases empty : (method.productFields options data).entries = []
  · exact ⟨[], List.Pairwise.nil, by simp [empty], by simp [empty]⟩
  · refine
      ⟨tuples ((method.productFields options data).values.map fun candidates =>
        List.range candidates.length), ?_, ?_, ?_⟩
    · apply pairwise_lex_tuples
      intro places listed
      rcases List.mem_map.1 listed with ⟨candidates, _, rfl⟩
      exact List.pairwise_lt_range
    · intro places
      simp [mem_tuples_iff, List.forall₂_map_right_iff, empty]
    · by_cases lacking : [] ∈ (method.productFields options data).values
      · have none : [] ∈ (method.productFields options data).values.map fun candidates =>
            List.range candidates.length :=
          List.mem_map.2 ⟨[], lacking, rfl⟩
        simp [lacking, tuples_eq_nil_of_mem none]
      · rw [if_neg (not_or_intro empty lacking), tuples_eq_map_itemsAt, List.map_map]
        rfl

end Method

end Assortment
