import Assortment.Binary64.Rounding

/-!
# The nearest natural number that is a float

A natural number is rounded to a multiple of a power of two that grows with its binary order, its
grain.  Up to two to the 53 the grain is one, or the number is a multiple of it, and nothing is
lost.  Beyond, a number moves by at most half of its grain, and numbers that are close to each other
may become one.

Rounding never exchanges two numbers: of two numbers of the same order the multiples keep the order,
and between numbers of different orders stands a power of two, which is rounded to itself.
-/

namespace Assortment.Binary64

open Power

section Quotients

variable {numerator larger denominator : Nat}

/-- What is rounded to is one of the two multiples around the number, and none that is farther than
half of the denominator. -/
theorem roundHalfEven_cases
    (numerator denominator : Nat) :
    (roundHalfEven numerator denominator = numerator / denominator ∧
        2 * (numerator % denominator) ≤ denominator) ∨
      (roundHalfEven numerator denominator = numerator / denominator + 1 ∧
        denominator ≤ 2 * (numerator % denominator)) := by
  simp only [roundHalfEven]
  split <;> omega

theorem roundHalfEven_mul
    (multiple : Nat)
    (positive : 0 < denominator) :
    roundHalfEven (multiple * denominator) denominator = multiple := by
  simp [roundHalfEven, positive]
  omega

theorem roundHalfEven_mono
    (ordered : numerator ≤ larger) :
    roundHalfEven numerator denominator ≤ roundHalfEven larger denominator := by
  have quotients : numerator / denominator ≤ larger / denominator := Nat.div_le_div_right ordered
  rcases Nat.lt_or_eq_of_le quotients with less | same
  · rcases roundHalfEven_cases numerator denominator with ⟨rounded, _⟩ | ⟨rounded, _⟩ <;>
      rcases roundHalfEven_cases larger denominator with ⟨roundedLarger, _⟩ | ⟨roundedLarger, _⟩ <;>
      omega
  · have remainders : numerator % denominator ≤ larger % denominator := by
      have whole := Nat.div_add_mod numerator denominator
      have wholeLarger := Nat.div_add_mod larger denominator
      rw [← same] at wholeLarger
      omega
    simp only [roundHalfEven, same]
    split <;> split <;> omega

/-- The rounded quotient is off by at most half the denominator. -/
theorem roundHalfEven_near
    (numerator : Nat)
    (positive : 0 < denominator) :
    2 * (roundHalfEven numerator denominator * denominator) ≤ 2 * numerator + denominator ∧
      2 * numerator ≤ 2 * (roundHalfEven numerator denominator * denominator) + denominator := by
  have whole := Nat.div_add_mod numerator denominator
  have remains := Nat.mod_lt numerator positive
  have rounding := roundHalfEven_cases numerator denominator
  generalize numerator / denominator = quotient at whole rounding
  generalize numerator % denominator = remainder at whole remains rounding
  rw [Nat.mul_comm] at whole
  rcases rounding with ⟨rounded, half⟩ | ⟨rounded, half⟩
  · rw [rounded]
    omega
  · rw [rounded, Nat.add_one_mul quotient denominator]
    omega

end Quotients

section Natural

variable {number larger : Nat}

/-- The power of two to whose multiples a natural number is rounded. -/
def grain (number : Nat) : Nat :=
  two (number.log2 - 52)

/-- The natural number that a natural number is rounded to. -/
def nearest (number : Nat) : Nat :=
  roundHalfEven number (grain number) * grain number

theorem grain_pos : 0 < grain number :=
  two_pos _

/-- A power of two that is not below the grain is rounded to itself at this grain. -/
theorem roundHalfEven_two
    {order : Nat}
    (coarse : number.log2 - 52 ≤ order) :
    roundHalfEven (two order) (grain number) * grain number = two order := by
  have multiple : two order = two (order - (number.log2 - 52)) * grain number := by
    rw [grain, ← two_add, Nat.sub_add_cancel coarse]
  rw [multiple, roundHalfEven_mul _ grain_pos]

theorem two_log2_le_nearest
    (positive : number ≠ 0) :
    two number.log2 ≤ nearest number := by
  rw [← roundHalfEven_two (Nat.sub_le number.log2 52), nearest]
  exact Nat.mul_le_mul_right _ (roundHalfEven_mono (two_log2_le positive))

theorem nearest_le_two_log2_succ :
    nearest number ≤ two (number.log2 + 1) := by
  have coarse : number.log2 - 52 ≤ number.log2 + 1 := by omega
  rw [← roundHalfEven_two coarse, nearest]
  exact Nat.mul_le_mul_right _ (roundHalfEven_mono (Nat.le_of_lt lt_two_log2_succ))

/-- Rounding keeps the order: powers of two stand between numbers of different binary order. -/
theorem nearest_mono
    (ordered : number ≤ larger) :
    nearest number ≤ nearest larger := by
  by_cases zero : number = 0
  · rw [zero]
    exact Nat.zero_le _
  rcases Nat.lt_or_eq_of_le (log2_le_log2 ordered) with less | same
  · calc
      nearest number ≤ two (number.log2 + 1) := nearest_le_two_log2_succ
      _ ≤ two larger.log2 := two_le_two less
      _ ≤ nearest larger := two_log2_le_nearest (by omega)
  · rw [nearest, nearest, grain, same, ← grain]
    exact Nat.mul_le_mul_right _ (roundHalfEven_mono ordered)

/-- A number of at most 53 bits is its own nearest one. -/
theorem nearest_of_log2_le
    (small : number.log2 ≤ 52) :
    nearest number = number := by
  have unit : grain number = 1 := by
    rw [grain, Nat.sub_eq_zero_of_le small]
    rfl
  have kept := roundHalfEven_mul number Nat.one_pos
  rw [Nat.mul_one] at kept
  rw [nearest, unit, kept, Nat.mul_one]

/-- Up to two to the 53 nothing is lost. -/
theorem nearest_of_le
    (small : number ≤ significandBound) :
    nearest number = number := by
  rcases Nat.lt_or_eq_of_le small with less | same
  · apply nearest_of_log2_le
    by_cases zero : number = 0
    · rw [zero]
      decide
    · exact Nat.le_of_lt_succ ((Nat.log2_lt zero).2 less)
  · rw [same]
    decide +kernel

theorem nearest_eq_zero_iff :
    nearest number = 0 ↔ number = 0 := by
  constructor
  · intro vanished
    rcases Nat.eq_zero_or_pos number with zero | positive
    · exact zero
    · have bounded := two_log2_le_nearest (Nat.ne_of_gt positive)
      have present := two_pos number.log2
      omega
  · rintro rfl
    decide

/-- A number below two to the 53 is the only one that is rounded to it. -/
theorem eq_of_nearest_eq
    (small : number < significandBound)
    (same : nearest number = nearest larger) :
    number = larger := by
  rw [nearest_of_le (Nat.le_of_lt small)] at same
  rcases Nat.lt_or_ge larger significandBound with otherSmall | large
  · rwa [nearest_of_le (Nat.le_of_lt otherSmall)] at same
  · have beyond := nearest_mono large
    rw [nearest_of_le (Nat.le_refl _), ← same] at beyond
    omega

/-- The nearest number is off by at most half the grain. -/
theorem nearest_near
    (number : Nat) :
    2 * nearest number ≤ 2 * number + grain number ∧
      2 * number ≤ 2 * nearest number + grain number :=
  roundHalfEven_near number grain_pos

theorem grain_le
    (large : 52 ≤ number.log2) :
    leastFullSignificand * grain number ≤ number := by
  have positive : number ≠ 0 := by
    rintro rfl
    cases large
  calc
    leastFullSignificand * grain number = two 52 * two (number.log2 - 52) := rfl
    _ = two number.log2 := by rw [← two_add, Nat.add_sub_cancel' large]
    _ ≤ number := two_log2_le positive

/-- Numbers that are rounded to the same one are no farther from each other than the grain of the
larger one, which is at most one part in two to the 52 of it. -/
theorem sub_le_of_nearest_eq
    (ordered : number ≤ larger)
    (same : nearest number = nearest larger) :
    leastFullSignificand * (larger - number) ≤ larger := by
  have orders := log2_le_log2 ordered
  rcases Nat.le_total larger.log2 52 with small | large
  · rw [nearest_of_log2_le (Nat.le_trans orders small), nearest_of_log2_le small] at same
    rw [same, Nat.sub_self]
    exact Nat.zero_le _
  · have finer : grain number ≤ grain larger := two_le_two (Nat.sub_le_sub_right orders 52)
    have above := (nearest_near number).1
    have below := (nearest_near larger).2
    have close : larger - number ≤ grain larger := by omega
    exact Nat.le_trans (Nat.mul_le_mul_left _ close) (grain_le large)

end Natural

end Assortment.Binary64
