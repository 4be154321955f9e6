import Mathlib.Algebra.BigOperators.Group.List.Basic
import Mathlib.Algebra.Order.Ring.Nat
import Mathlib.Data.List.Forall2

/-!
# Numbers in mixed radix

A number below the product of some sizes has one digit for each size, and each digit is below its
size.  The last digit is the lowest: it changes fastest as numbers are counted up, and a digit
changes once for every full round of the digits behind it.

Reading the digits off a number and putting a number together from its digits undo each other, so
every choice of digits below the sizes belongs to exactly one number.  Larger numbers have later
digits in the lexicographic order.
-/

namespace Assortment.MixedRadix

/-- The digits of a number for some sizes, the last digit being the lowest. -/
def digits : List Nat → Nat → List Nat
  | [], _ => []
  | size :: faster, number => number / faster.prod % size :: digits faster number

/-- The number that has the given digits for some sizes. -/
def number : List Nat → List Nat → Nat
  | _ :: faster, digit :: others => digit * faster.prod + number faster others
  | _, _ => 0

variable {sizes chosen : List Nat}

/-- The digit at a place counts the rounds of all places behind it. -/
theorem getElem?_digits
    (sizes : List Nat)
    (counted place : Nat) :
    (digits sizes counted)[place]? =
      sizes[place]?.map fun size => counted / (sizes.drop (place + 1)).prod % size := by
  induction sizes generalizing place with
  | nil => rfl
  | cons size faster inductionHypothesis =>
    cases place with
    | zero => rfl
    | succ place => exact inductionHypothesis place

/-- The digits do not see whole rounds of all places. -/
theorem digits_mod_prod
    (sizes : List Nat)
    (counted : Nat) :
    digits sizes (counted % sizes.prod) = digits sizes counted := by
  induction sizes generalizing counted with
  | nil => rfl
  | cons size faster inductionHypothesis =>
    have first :
        counted % (faster.prod * size) / faster.prod % size = counted / faster.prod % size := by
      rw [Nat.mod_mul_right_div_self, Nat.mod_mod]
    have others : digits faster (counted % (faster.prod * size)) = digits faster counted := by
      rw [← inductionHypothesis, Nat.mod_mul_right_mod, inductionHypothesis]
    rw [List.prod_cons, Nat.mul_comm size, digits, digits, first, others]

theorem number_lt_prod
    (within : List.Forall₂ (· < ·) chosen sizes) :
    number sizes chosen < sizes.prod := by
  induction within with
  | nil => exact Nat.one_pos
  | @cons digit size others faster below _ inductionHypothesis =>
    rw [number, List.prod_cons]
    calc
      digit * faster.prod + number faster others < digit * faster.prod + faster.prod :=
        Nat.add_lt_add_left inductionHypothesis _
      _ = (digit + 1) * faster.prod := (Nat.succ_mul digit faster.prod).symm
      _ ≤ size * faster.prod := Nat.mul_le_mul_right faster.prod below

theorem digits_number
    (within : List.Forall₂ (· < ·) chosen sizes) :
    digits sizes (number sizes chosen) = chosen := by
  induction within with
  | nil => rfl
  | @cons digit size others faster below behind inductionHypothesis =>
    have rest : number faster others < faster.prod := number_lt_prod behind
    have rounds : (digit * faster.prod + number faster others) / faster.prod = digit := by
      rw [Nat.mul_comm, Nat.mul_add_div (Nat.zero_lt_of_lt rest), Nat.div_eq_of_lt rest,
        Nat.add_zero]
    have remaining :
        digits faster (digit * faster.prod + number faster others) =
          digits faster (number faster others) := by
      rw [← digits_mod_prod, Nat.mul_add_mod_self_right, digits_mod_prod]
    rw [number, digits, rounds, Nat.mod_eq_of_lt below, remaining, inductionHypothesis]

/-- A number below the product of the sizes is the one of its digits. -/
theorem number_digits
    {counted : Nat}
    (below : counted < sizes.prod) :
    number sizes (digits sizes counted) = counted := by
  induction sizes generalizing counted with
  | nil => exact (Nat.lt_one_iff.1 below).symm
  | cons size faster inductionHypothesis =>
    have positive : 0 < size * faster.prod := Nat.zero_lt_of_lt below
    have remaining : counted % faster.prod < faster.prod :=
      Nat.mod_lt counted (Nat.pos_of_mul_pos_left positive)
    have first : counted / faster.prod < size := Nat.div_lt_of_lt_mul (by rwa [Nat.mul_comm])
    rw [digits, number, Nat.mod_eq_of_lt first, ← digits_mod_prod, inductionHypothesis remaining,
      Nat.mul_comm, Nat.div_add_mod]

/-- A larger number has later digits in the lexicographic order. -/
theorem lex_digits
    {earlier later : Nat}
    (before : earlier < later)
    (below : later < sizes.prod) :
    List.Lex (· < ·) (digits sizes earlier) (digits sizes later) := by
  induction sizes generalizing earlier later with
  | nil => exact absurd before (by simp [Nat.lt_one_iff.1 below])
  | cons size faster inductionHypothesis =>
    have positive : 0 < faster.prod :=
      Nat.pos_of_mul_pos_left (Nat.zero_lt_of_lt below : 0 < size * faster.prod)
    have first : later / faster.prod < size := Nat.div_lt_of_lt_mul (by rwa [Nat.mul_comm])
    have ordered : earlier / faster.prod ≤ later / faster.prod :=
      Nat.div_le_div_right (Nat.le_of_lt before)
    rw [digits, digits, Nat.mod_eq_of_lt first, Nat.mod_eq_of_lt (Nat.lt_of_le_of_lt ordered first)]
    rcases Nat.lt_or_eq_of_le ordered with sooner | same
    · exact .rel sooner
    · -- In the same round of the places behind, the remainders are in the order of the numbers.
      have remainders : earlier % faster.prod < later % faster.prod := by
        have whole := Nat.div_add_mod earlier faster.prod
        have otherWhole := Nat.div_add_mod later faster.prod
        rw [same] at whole
        omega
      rw [same, ← digits_mod_prod faster earlier, ← digits_mod_prod faster later]
      exact .cons (inductionHypothesis remainders (Nat.mod_lt later positive))

end Assortment.MixedRadix
