import Assortment.Proofs.Run.Conclusion

/-!
# The variations of a successful run

A run that succeeds produces the expected variations of its method, in their order, which is the
lexicographic order of the places that the candidates have in their lists.  The witness runs the
drill of the standard catalogue on an input with a null that gives way to a default, two names and a
list of numbers of which one is not an integer.
-/

namespace Assortment

theorem Catalogue.generate_of_registered
    {catalogue : Catalogue}
    {name : String}
    {method : Method}
    (registered : catalogue.get? name = some method)
    (options : Options)
    (data : Row)
    (groups : List String) :
    catalogue.generate options name data groups =
      method.generate options name data groups := by
  rw [generate, registered]

/-- The rows of a run that yields any are the expected ones. -/
theorem Method.variations_of_concludes
    {method : Method}
    {options : Options}
    {name : String}
    {data : Row}
    {groups : List String}
    {generated : Generated}
    (concluded : method.Concludes options name data groups (.ok generated)) :
    generated.variations = method.expectedVariations options data groups := by
  cases concluded with
  | produced complete passed within => rfl

/-- A run of a registered method that succeeds produces exactly the expected variations, one for
each choice of candidates and in the lexicographic order of their places. -/
theorem Catalogue.variations_eq_expected
    {catalogue : Catalogue}
    {options : Options}
    {name : String}
    {data : Row}
    {groups : List String}
    {method : Method}
    {generated : Generated}
    (registered : catalogue.get? name = some method)
    (succeeded : catalogue.generate options name data groups = .ok generated) :
    generated.variations = method.expectedVariations options data groups ∧
      method.ListsByPlaces options data groups generated.variations := by
  rw [generate_of_registered registered] at succeeded
  have concluded := method.concludes_generate options name data groups
  rw [succeeded] at concluded
  have expected := Method.variations_of_concludes concluded
  refine ⟨expected, ?_⟩
  rw [expected]
  exact method.listsByPlaces_expectedVariations options data groups

/-- What is learned from evaluating a run that succeeds. -/
theorem Outcome.exists_generated_of_map_eq
    {outcome : Except Failure Generated}
    {α : Type}
    {read : Generated → α}
    {told : α}
    (evaluated : outcome.toOption.map read = some told) :
    ∃ generated, outcome = .ok generated ∧ read generated = told := by
  cases outcome with
  | error failure => cases evaluated
  | ok generated => exact ⟨generated, rfl, Option.some.inj evaluated⟩

/-- An input for the drill with two names, three numbers and no side. -/
def drillInput : Row :=
  OrderedMap.ofList
    [("nf", .null), ("name", .array [.string "A", .string "B"]),
      ("fn", .array [.int 1, .string "x", .int 2])]

/-- A method with two fields and two templates, whose four rows are the expected ones. -/
theorem drill_variations_eq_expected :
    ∃ method generated,
      Catalogue.standard.get? "drill" = some method ∧
        Catalogue.standard.generate {} "drill" drillInput ["g"] = .ok generated ∧
        generated.variations = method.expectedVariations {} drillInput ["g"] ∧
        method.ListsByPlaces {} drillInput ["g"] generated.variations ∧
        generated.variations.length = 4 := by
  have known : (Catalogue.standard.get? "drill").isSome = true := by decide +kernel
  have counted :
      (Catalogue.standard.generate {} "drill" drillInput ["g"]).toOption.map
        (fun generated => generated.variations.length) = some 4 := by
    decide +kernel
  rcases Option.isSome_iff_exists.1 known with ⟨method, registered⟩
  cases succeeded : Catalogue.standard.generate {} "drill" drillInput ["g"] with
  | error failure =>
    rw [succeeded] at counted
    cases counted
  | ok generated =>
    rw [succeeded] at counted
    rcases Catalogue.variations_eq_expected registered succeeded with ⟨expected, listed⟩
    exact ⟨method, generated, registered, rfl, expected, listed, Option.some.inj counted⟩

end Assortment
