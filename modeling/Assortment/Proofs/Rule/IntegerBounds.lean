import Assortment.Proofs.Binary64.Integers
import Assortment.Proofs.Numeral.Integer
import Assortment.Proofs.Rule.RoundTrip
import Mathlib.Algebra.Ring.Nat

/-!
# Integers as bounds of integers

A bound is read as a float, and so is an integer that is compared with it.  A bound that is written
as an integer is the float that this integer is rounded to, so what is compared are two rounded
integers.  No integer that meets the bound is refused.  One that does not is accepted when it is
rounded to the same float as the bound, which needs an integer beyond two to the 53.
-/

namespace Assortment

open Binary64 (ofInt)

namespace Numeral

/-- Digits without a point and a power are rounded as the integer that they denote. -/
theorem ofDecimal_zero_eq_ofRatio
    (negative : Bool)
    (digits : Nat) :
    Binary64.ofDecimal negative digits 0 = Binary64.ofRatio negative digits 1 := by
  by_cases zero : digits = 0
  · rw [Binary64.ofDecimal, if_pos zero, Binary64.ofRatio, if_pos zero]
  · have inRange : ¬ (309 : Int) ≤ 0 := by decide
    have present : ¬ (digits.log2 : Int) + 1 + 0 ≤ -324 := by omega
    rw [Binary64.ofDecimal, if_neg zero, if_neg inRange, if_neg present]
    exact congrArg (Binary64.ofRatio negative · 1) (Nat.mul_one digits)

/-- The text of an integer is read as the float that the integer is rounded to. -/
theorem ofText?_repr
    (integer : Int) :
    ofText? integer.repr = some (ofInt integer) := by
  have unpadded := unpadded_toDigits integer.natAbs
  have spelled :=
    Spells.parts (sign_shownSign (decide (integer < 0))) (.whole unpadded.present) .absent
  rw [List.append_nil, ← toList_repr, ← core_eq_toList (writtenIn_repr integer)] at spelled
  refine ofText?_eq_some_iff.2 ⟨_, spelled, ?_⟩
  simp only [value?, digits, Option.map_none, Option.getD_none, List.append_nil, unpadded.ascii,
    if_true, natOfDigits, Nat.ofDigitChars_ten_toDigits, powerValue, List.length_nil]
  exact congrArg some (ofDecimal_zero_eq_ofRatio _ _)

/-- An integer that is shown reads back as the number nearest to it. -/
theorem leading_repr
    (integer : Int) :
    leading integer.repr = ofInt integer :=
  leading_eq_of_ofText? (ofText?_repr integer)

end Numeral

namespace Rule

variable {bound number : Int}

/-- A rule whose parameter is an integer. -/
theorem parse_integer_parameter
    {name opening : String}
    (opened : opening = name ++ "[")
    (unopened : '[' ∉ name.toList)
    (integer : Int) :
    parse (opening ++ integer.repr ++ "]") = ⟨name, some integer.repr⟩ := by
  have unclosed : ']' ∉ integer.repr.toList := by
    intro member
    have listed := Numeral.mem_of_writtenIn (Numeral.writtenIn_repr integer) member
    exact absurd listed (by decide)
  have written :
      (opening ++ integer.repr ++ "]").toList =
        name.toList ++ '[' :: (integer.repr.toList ++ ']' :: []) := by
    simp [opened]
  rw [parse_bracketed written unopened unclosed, String.ofList_toList, String.ofList_toList]

/-- A lower bound on integers compares the numbers nearest to them. -/
theorem min_accepts_int_iff :
    (parse ("min[" ++ bound.repr ++ "]")).accepts (.int number) = true ↔
      (ofInt bound).le (ofInt number) = true := by
  have opened : "min[" = "min" ++ "[" := rfl
  rw [parse_integer_parameter opened (by decide), ← Numeral.leading_repr bound]
  exact Iff.rfl

theorem max_accepts_int_iff :
    (parse ("max[" ++ bound.repr ++ "]")).accepts (.int number) = true ↔
      (ofInt number).le (ofInt bound) = true := by
  have opened : "max[" = "max" ++ "[" := rfl
  rw [parse_integer_parameter opened (by decide), ← Numeral.leading_repr bound]
  exact Iff.rfl

/-- How far an integer is held to a bound that is an integer. -/
structure BoundedUpToRounding (bound number : Int) : Prop where
  minimum :
    (parse ("min[" ++ bound.repr ++ "]")).accepts (.int number) = true ↔
      bound ≤ number ∨ ofInt bound = ofInt number
  maximum :
    (parse ("max[" ++ bound.repr ++ "]")).accepts (.int number) = true ↔
      number ≤ bound ∨ ofInt bound = ofInt number
  /-- Only integers that are close to the bound are taken for it. -/
  close :
    ofInt bound = ofInt number →
      2 ^ 52 * (bound - number).natAbs ≤ max bound.natAbs number.natAbs
  /-- Below two to the 53 none is. -/
  separate :
    bound.natAbs < 2 ^ 53 ∨ number.natAbs < 2 ^ 53 →
      ofInt bound = ofInt number → bound = number

/--
An integer meets a bound that is an integer exactly when it does so as integers or is rounded to the
same float as the bound.  Different integers are rounded to one float only if both are beyond two to
the 53, and they differ by at most one part in two to the 52 then.
-/
theorem integer_bounds_compared
    (representable : Word.Representable bound)
    (numberRepresentable : Word.Representable number) :
    BoundedUpToRounding bound number := by
  have rounded := Binary64.ofInt_eq_ofInt_iff representable numberRepresentable
  constructor
  case minimum =>
    rw [min_accepts_int_iff, Binary64.le_ofInt_iff_or_eq representable numberRepresentable]
  case maximum =>
    rw [max_accepts_int_iff, Binary64.le_ofInt_iff_or_eq numberRepresentable representable]
    exact or_congr_right eq_comm
  case close =>
    intro same
    exact Binary64.natAbs_sub_le_of_nearestInt_eq (rounded.1 same)
  case separate =>
    intro small same
    exact Binary64.eq_of_nearestInt_eq small (rounded.1 same)

/-- The greatest integer of the data is held to the least bound of the data. -/
theorem outermost_integers_compared :
    Word.Representable (-9223372036854775808) ∧ Word.Representable 18446744073709551615 ∧
      BoundedUpToRounding (-9223372036854775808) 18446744073709551615 := by
  have least : Word.Representable (-9223372036854775808) := by decide
  have greatest : Word.Representable 18446744073709551615 := by decide
  exact ⟨least, greatest, integer_bounds_compared least greatest⟩

/-- The first integer that is no float is rounded to its neighbour, which therefore meets it as a
bound from below and is met by it as a bound from above. -/
theorem neighbour_meets_bound :
    Word.Representable 9007199254740993 ∧ Word.Representable 9007199254740992 ∧
      ¬ (9007199254740993 : Int) ≤ 9007199254740992 ∧
      (parse ("min[" ++ (9007199254740993 : Int).repr ++ "]")).accepts
          (.int 9007199254740992) = true ∧
      (parse ("max[" ++ (9007199254740992 : Int).repr ++ "]")).accepts
          (.int 9007199254740993) = true := by
  refine ⟨by decide, by decide, by decide, by decide +kernel, by decide +kernel⟩

end Rule

end Assortment
