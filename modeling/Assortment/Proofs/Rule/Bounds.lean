import Assortment.Document.Findings
import Assortment.Proofs.Numeral.Reading

/-!
# Bounds that raise no warning

The bound of a rule is read from the beginning of its parameter and is zero when nothing can be read
there, so a misspelt bound is enforced as some other number.  The review of a document looks at the
parameter as a whole.  Where it finds no fault, the whole parameter is a number, and the number that
is enforced is this one.
-/

namespace Assortment

/-- A criterion with a bound has the one that its parameter begins with. -/
theorem Criterion.leading_eq_of_ofParts
    {name : String}
    {parameter : Option String}
    {bound : Binary64}
    (bounded : ofParts name parameter = .min bound ∨ ofParts name parameter = .max bound) :
    Numeral.leading (parameter.getD "") = bound := by
  simp only [ofParts] at bounded
  split_ifs at bounded <;> simp at bounded
  · exact bounded
  · exact bounded

namespace Rule

variable
    {rule : Rule}
    {bound : Binary64}

/-- A bound without a fault has a parameter, and the whole parameter is a number. -/
theorem exists_parameter_of_faultless
    (bounded : rule.criterion = .min bound ∨ rule.criterion = .max bound)
    (faultless : rule.fault? = none) :
    ∃ parameter number,
      rule.parameter = some parameter ∧ Numeral.ofText? parameter = some number := by
  cases given : rule.parameter with
  | none =>
    rcases bounded with minimum | maximum
    · simp only [fault?, minimum, given, reduceCtorEq] at faultless
    · simp only [fault?, maximum, given, reduceCtorEq] at faultless
  | some parameter =>
    have denotes : (Numeral.ofText? parameter).isNone = false := by
      rcases bounded with minimum | maximum
      · simpa only [fault?, minimum, given, ite_eq_right_iff, reduceCtorEq, imp_false,
          Bool.not_eq_true] using faultless
      · simpa only [fault?, maximum, given, ite_eq_right_iff, reduceCtorEq, imp_false,
          Bool.not_eq_true] using faultless
    cases denoted : Numeral.ofText? parameter with
    | none =>
      rw [denoted] at denotes
      cases denotes
    | some number => exact ⟨parameter, number, rfl, denoted⟩

/--
A bound that the review finds no fault with is the number that its whole parameter denotes, because
the beginning of a text that is a number is read as this number.
-/
theorem faultless_bound_denoted :
    (∀ segment bound,
      (parse segment).criterion = .min bound ∨ (parse segment).criterion = .max bound →
        (parse segment).fault? = none →
          ∃ parameter,
            (parse segment).parameter = some parameter ∧
              Value.number? (.string parameter) = some bound) ∧
      ∀ text number,
        Value.number? (.string text) = some number → Numeral.leading text = number := by
  refine ⟨?_, fun _ _ => Numeral.leading_eq_of_ofText?⟩
  intro segment bound bounded faultless
  rcases exists_parameter_of_faultless bounded faultless with ⟨parameter, number, given, denoted⟩
  have enforced := Criterion.leading_eq_of_ofParts bounded
  rw [given, Option.getD_some, Numeral.leading_eq_of_ofText? denoted] at enforced
  exact ⟨parameter, given, enforced ▸ denoted⟩

/-- A bound in the notation with a sign and a power, between blanks. -/
theorem padded_bound_denoted :
    ((parse "max[ +1.5e2\t]").criterion = .max (.ofInt 150) ∧
        (parse "max[ +1.5e2\t]").fault? = none ∧
        ∃ parameter,
          (parse "max[ +1.5e2\t]").parameter = some parameter ∧
            Value.number? (.string parameter) = some (.ofInt 150)) ∧
      Value.number? (.string "-.5\n") = some (.ofRatio true 1 2) ∧
        Numeral.leading "-.5\n" = .ofRatio true 1 2 := by
  have bounded : (parse "max[ +1.5e2\t]").criterion = .max (.ofInt 150) := by decide +kernel
  have faultless : (parse "max[ +1.5e2\t]").fault? = none := by decide +kernel
  have denoted : Value.number? (.string "-.5\n") = some (.ofRatio true 1 2) := by decide +kernel
  exact ⟨⟨bounded, faultless,
      faultless_bound_denoted.1 "max[ +1.5e2\t]" (.ofInt 150) (.inr bounded) faultless⟩,
    denoted, faultless_bound_denoted.2 "-.5\n" (.ofRatio true 1 2) denoted⟩

end Rule

end Assortment
