/-!
# Powers of two and of ten

Binary and decimal notation meet in powers of two and of ten, both functions of a natural exponent.
Powers of two turn sums of exponents into products, and a positive number lies between the power of
two of its binary order and the next one.
-/

namespace Assortment.Power

/-- A power of two. -/
def two (exponent : Nat) : Nat :=
  Nat.pow 2 exponent

/-- A power of ten. -/
def ten (exponent : Nat) : Nat :=
  Nat.pow 10 exponent

theorem two_add
    (left right : Nat) :
    two (left + right) = two left * two right :=
  Nat.pow_add 2 left right

theorem two_pos
    (exponent : Nat) :
    0 < two exponent :=
  Nat.pow_pos (by decide)

section Order

variable {number low high : Nat}

/-- The binary logarithm is the exponent of a power of two the number reaches. -/
theorem two_log2_le
    (positive : number ≠ 0) :
    two number.log2 ≤ number :=
  Nat.log2_self_le positive

theorem lt_two_log2_succ :
    number < two (number.log2 + 1) :=
  Nat.lt_log2_self

theorem two_le_two
    (ordered : low ≤ high) :
    two low ≤ two high :=
  Nat.pow_le_pow_right (by decide) ordered

theorem log2_le_log2
    (ordered : low ≤ high) :
    low.log2 ≤ high.log2 := by
  by_cases zero : low = 0
  · rw [zero]
    exact Nat.zero_le _
  · exact (Nat.le_log2 (by omega)).2 (Nat.le_trans (two_log2_le zero) ordered)

end Order

end Assortment.Power
