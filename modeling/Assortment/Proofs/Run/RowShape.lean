import Assortment.Proofs.Run.Variations
import Assortment.Proofs.Template.Outputs

/-!
# The shape of the rows

All rows of a run have the same fields in the same order: first the fields of the product, in the
order of the merged input, and then those fields of the templates that are not among them, in the
order in which the templates are declared.  A template that overwrites a field of the product leaves
it in its place.

What a row holds is known by the kind of the field.  A field that a template produces holds a text,
even if a candidate stood there before; every other field holds one of its valid candidates.
-/

namespace Assortment

namespace Method

variable
    {method : Method}
    {options : Options}
    {name : String}
    {data : Row}
    {groups : List String}

/-- The fields of the rows of a run, in order. -/
def outline (method : Method) (options : Options) (data : Row) : List String :=
  let kept := (method.productFields options data).keys
  kept ++ method.templates.keys.filter fun field => field ∉ kept

/-- A row that has the fields of a run and holds under them what is due there. -/
structure Shapes (method : Method) (options : Options) (data row : Row) : Prop where
  keys : row.keys = method.outline options data
  written :
    ∀ field ∈ method.templates.keys, ∃ text, row.get? field = some (.string text)
  chosen :
    ∀ field ∈ row.keys, field ∉ method.templates.keys →
      ∃ value candidate,
        (method.merged data).get? field = some value ∧
          candidate ∈ value.offered ∧
          method.Valid field candidate ∧
          row.get? field = some candidate

theorem nodup_outline
    (method : Method)
    (options : Options)
    (data : Row) :
    (method.outline options data).Nodup := by
  refine List.nodup_append.2
    ⟨(method.productFields options data).distinct, method.templates.distinct.filter _, ?_⟩
  intro field kept other added
  rintro rfl
  have new := of_decide_eq_true (List.mem_filter.1 added).2
  exact new kept

/-- A field of the product has the valid candidates of what the merged input holds there. -/
theorem exists_value_of_mem_productFields
    {field : String}
    {candidates : List Value}
    (listed : (field, candidates) ∈ (method.productFields options data).entries) :
    ∃ value, (method.merged data).get? field = some value ∧
      candidates = method.validCandidates field value := by
  rcases List.mem_map.1 (List.mem_filter.1 listed).1 with ⟨⟨_, value⟩, member, same⟩
  cases same
  exact ⟨value, OrderedMap.get?_eq_some_iff.2 member, rfl⟩

theorem mem_validCandidates_iff
    {field : String}
    {value candidate : Value} :
    candidate ∈ method.validCandidates field value ↔
      candidate ∈ value.offered ∧ method.Valid field candidate := by
  rw [validCandidates, List.mem_filter, decide_eq_true_iff]

/-- Every expected row is written from a tuple of candidates. -/
theorem exists_tuple_of_mem_expectedVariations
    {row : Row}
    (expected : row ∈ method.expectedVariations options data groups) :
    ∃ tuple ∈ tuples (method.productFields options data).values,
      row =
        Template.applyAll method.templates.entries groups
          ((method.productFields options data).withValues tuple) := by
  rw [expectedVariations, withTexts_eq_applyAll] at expected
  split at expected
  · cases expected
  · rcases List.mem_map.1 expected with ⟨tuple, taken, rfl⟩
    exact ⟨tuple, taken, rfl⟩

/-- Every expected row has the shape the method gives its rows. -/
theorem shapes_of_mem_expectedVariations
    {row : Row}
    (expected : row ∈ method.expectedVariations options data groups) :
    method.Shapes options data row := by
  rcases exists_tuple_of_mem_expectedVariations expected with ⟨tuple, taken, rfl⟩
  have kept := OrderedMap.keys_withValues taken
  constructor
  case keys =>
    rw [Template.keys_applyAll method.templates.distinct, kept]
    rfl
  case written =>
    intro field produced
    exact Template.exists_text_of_mem produced groups _
  case chosen =>
    intro field present foreign
    -- The templates leave the field alone, so it stands in the row that they were written into.
    rw [Template.get?_applyAll_of_not_mem foreign]
    rw [Template.keys_applyAll method.templates.distinct] at present
    have inFront :
        field ∈ ((method.productFields options data).withValues tuple).keys := by
      rcases List.mem_append.1 present with front | added
      · exact front
      · exact absurd (List.mem_filter.1 added).1 foreign
    rcases List.mem_map.1 inFront with ⟨⟨_, candidate⟩, placed, rfl⟩
    rcases OrderedMap.exists_candidates_of_withValues taken placed with
      ⟨candidates, listed, member⟩
    rcases exists_value_of_mem_productFields listed with ⟨value, held, rfl⟩
    rcases mem_validCandidates_iff.1 member with ⟨offered, valid⟩
    exact ⟨value, candidate, held, offered, valid, OrderedMap.get?_eq_some_iff.2 placed⟩

end Method

/--
All rows of a run that succeeds have the same fields, which depend on the method, the options and
the merged input only.  Fields of templates hold texts and all others hold valid candidates, and a
template that overwrites a field neither moves, adds nor drops one.
-/
theorem Catalogue.rows_shaped
    {catalogue : Catalogue}
    {options : Options}
    {name : String}
    {data : Row}
    {groups : List String}
    {method : Method}
    {generated : Generated}
    (registered : catalogue.get? name = some method)
    (succeeded : catalogue.generate options name data groups = .ok generated) :
    (method.outline options data).Nodup ∧
      (∀ row ∈ generated.variations, method.Shapes options data row) ∧
      ∀ template ∈ method.templates.entries, ∀ row : Row, template.1 ∈ row.keys →
        (Template.applyAll [template] groups row).keys = row.keys := by
  rw [generate_of_registered registered] at succeeded
  have concluded := method.concludes_generate options name data groups
  rw [succeeded] at concluded
  refine ⟨method.nodup_outline options data, ?_, ?_⟩
  · intro row produced
    rw [Method.variations_of_concludes concluded] at produced
    exact Method.shapes_of_mem_expectedVariations produced
  · intro template _ row present
    exact Template.keys_applyAll_singleton present groups

/-- In the drill a template overwrites the second field of the rows. -/
theorem drill_rows_shaped :
    ∃ method generated,
      Catalogue.standard.get? "drill" = some method ∧
        Catalogue.standard.generate {} "drill" drillInput ["g"] = .ok generated ∧
        method.outline {} drillInput = ["nf", "name", "fn"] ∧
        method.templates.keys = ["name"] ∧
        (∀ row ∈ generated.variations, method.Shapes {} drillInput row) ∧
        generated.variations.length = 4 := by
  have known :
      (Catalogue.standard.get? "drill").map
          (fun method => (method.outline {} drillInput, method.templates.keys)) =
        some (["nf", "name", "fn"], ["name"]) := by
    decide +kernel
  have counted :
      (Catalogue.standard.generate {} "drill" drillInput ["g"]).toOption.map
        (fun generated => generated.variations.length) = some 4 := by
    decide +kernel
  rcases Option.map_eq_some_iff.1 known with ⟨method, registered, told⟩
  rcases Prod.mk.inj told with ⟨outline, templates⟩
  rcases Outcome.exists_generated_of_map_eq counted with ⟨generated, succeeded, length⟩
  exact ⟨method, generated, registered, succeeded, outline, templates,
    (Catalogue.rows_shaped registered succeeded).2.1, length⟩

end Assortment
