import Assortment.Proofs.Binary64.Nearest
import Assortment.Word

/-!
# Integers as floats

The float that an integer is rounded to holds the nearest integer that is a float, with its sign;
every integer of word size has one.  Since a number of the format has one significand and one
exponent, integers that are rounded to one integer are one float.

Comparing the floats is therefore comparing the integers, except that different integers may
compare as equal.  Those differ by at most one part in two to the 52, and none of them is below two
to the 53.
-/

namespace Assortment.Binary64

open Power

section Assembly

variable
    {negative : Bool}
    {significand : Nat}
    {exponent : Int}
    {number : Finite}

/-- A significand and an exponent as a float, where the significand may have reached its bound. -/
def assembled (negative : Bool) (significand : Nat) (exponent : Int) : Binary64 :=
  let carried :=
    if significand = significandBound then
      (leastFullSignificand, exponent + 1)
    else
      (significand, exponent)
  if canonical : Canonical carried.1 carried.2 then
    finite ⟨negative, carried.1, carried.2, canonical⟩
  else
    infinite negative

/-- Rounding a positive ratio assembles its scaled quotient, rounded half to even. -/
theorem ofRatio_eq_assembled
    {numerator denominator : Nat}
    (positive : numerator ≠ 0) :
    ofRatio negative numerator denominator =
      let exponent := max leastExponent (binaryOrder numerator denominator - 52)
      let scaled := scaleQuotient numerator denominator (-exponent)
      assembled negative (roundHalfEven scaled.1 scaled.2) exponent := by
  rw [ofRatio, if_neg positive]
  rfl

/-- The carry leaves the number as it is. -/
theorem magnitude_of_assembled
    (bounded : leastExponent ≤ exponent)
    (found : assembled negative significand exponent = finite number) :
    number.negative = negative ∧
      number.magnitude = significand * two (exponent - leastExponent).toNat := by
  by_cases full : significand = significandBound
  · have next : (exponent + 1 - leastExponent).toNat = (exponent - leastExponent).toNat + 1 := by
      omega
    have carried :
        leastFullSignificand * two (exponent + 1 - leastExponent).toNat =
          significand * two (exponent - leastExponent).toNat := by
      rw [next, two_add, full, Nat.mul_comm (two _), ← Nat.mul_assoc]
      rfl
    simp only [assembled, if_pos full] at found
    split at found
    · cases found
      exact ⟨rfl, carried⟩
    · cases found
  · simp only [assembled, if_neg full] at found
    split at found
    · cases found
      exact ⟨rfl, rfl⟩
    · cases found

/-- A full significand within range and below the greatest exponent assembles to a finite number. -/
theorem exists_assembled
    (bounded : significand ≤ significandBound)
    (normal : leastFullSignificand ≤ significand)
    (above : leastExponent ≤ exponent)
    (below : exponent < greatestExponent) :
    ∃ number, assembled negative significand exponent = finite number := by
  by_cases full : significand = significandBound
  · have canonical : Canonical leastFullSignificand (exponent + 1) :=
      ⟨by decide, by omega, by omega, .inl (Nat.le_refl _)⟩
    simp only [assembled, if_pos full, dif_pos canonical]
    exact ⟨_, rfl⟩
  · have canonical : Canonical significand exponent :=
      ⟨Nat.lt_of_le_of_ne bounded full, above, Int.le_of_lt below, .inl normal⟩
    simp only [assembled, if_neg full, dif_pos canonical]
    exact ⟨_, rfl⟩

end Assembly

section Uniqueness

variable {left right : Finite}

theorem exponent_le_of_magnitude_eq
    (magnitudes : left.magnitude = right.magnitude) :
    right.exponent ≤ left.exponent := by
  rcases left.canonical with ⟨bounded, above, _, _⟩
  rcases right.canonical with ⟨_, rightAbove, _, normal⟩
  refine Int.not_lt.1 fun less => ?_
  have full : leastFullSignificand ≤ right.significand := by
    refine normal.resolve_right fun least => ?_
    omega
  -- the significand on the left would have at least one bit more than the format has
  have apart :
      (right.exponent - leastExponent).toNat =
        (right.exponent - left.exponent - 1).toNat + 1 + (left.exponent - leastExponent).toNat := by
    omega
  have shifted :
      left.significand = right.significand * two ((right.exponent - left.exponent - 1).toNat + 1) := by
    apply Nat.eq_of_mul_eq_mul_right (two_pos (left.exponent - leastExponent).toNat)
    rw [Nat.mul_assoc, ← two_add, ← apart]
    exact magnitudes
  have large : significandBound ≤ left.significand := by
    rw [shifted, Nat.add_comm, two_add, ← Nat.mul_assoc]
    exact Nat.le_trans (Nat.mul_le_mul_right 2 full) (Nat.le_mul_of_pos_right _ (two_pos _))
  omega

/-- A magnitude has one significand and one exponent. -/
theorem Finite.eq_of_magnitude
    (signs : left.negative = right.negative)
    (magnitudes : left.magnitude = right.magnitude) :
    left = right := by
  have exponents : left.exponent = right.exponent :=
    Int.le_antisymm (exponent_le_of_magnitude_eq magnitudes.symm)
      (exponent_le_of_magnitude_eq magnitudes)
  rw [magnitude, magnitude, exponents] at magnitudes
  have significands := Nat.eq_of_mul_eq_mul_right (two_pos _) magnitudes
  cases left
  cases right
  simp only at signs exponents significands
  subst signs exponents significands
  rfl

end Uniqueness

section Integers

variable
    {integer other : Int}
    {number : Finite}

/-- The integer that an integer is rounded to. -/
def nearestInt (integer : Int) : Int :=
  if integer < 0 then -nearest integer.natAbs else nearest integer.natAbs

theorem binaryOrder_one
    {number : Nat}
    (positive : number ≠ 0) :
    binaryOrder number 1 = number.log2 := by
  have reached : two number.log2 ≤ number := two_log2_le positive
  have guess : (number.log2 : Int) - Nat.log2 1 = number.log2 := by
    rw [show Nat.log2 1 = 0 by decide]
    omega
  simp only [binaryOrder, guess, scaleQuotient]
  rw [if_pos]
  simpa [two] using reached

/-- The significand of a natural number, at the exponent that its binary order asks for. -/
def significandOf (number : Nat) : Nat :=
  roundHalfEven (number * two (52 - number.log2)) (two (number.log2 - 52))

/-- The number is the significand, scaled, whether its exponent is negative or not. -/
theorem significandOf_mul
    (number : Nat) :
    significandOf number * two number.log2 = nearest number * two 52 := by
  rcases Nat.le_total number.log2 52 with small | large
  · have unit : two (number.log2 - 52) = 1 := by
      rw [Nat.sub_eq_zero_of_le small]
      rfl
    have kept := roundHalfEven_mul (number * two (52 - number.log2)) Nat.one_pos
    rw [Nat.mul_one] at kept
    rw [significandOf, unit, kept, nearest_of_log2_le small, Nat.mul_assoc, ← two_add,
      Nat.sub_add_cancel small]
  · have unscaled : number * two (52 - number.log2) = number := by
      rw [Nat.sub_eq_zero_of_le large]
      exact Nat.mul_one number
    rw [significandOf, unscaled, nearest, grain, Nat.mul_assoc, ← two_add,
      Nat.sub_add_cancel large]

/-- A nonzero integer is assembled from its sign, its significand and its logarithm. -/
theorem ofInt_eq_assembled
    (nonzero : integer ≠ 0) :
    ofInt integer =
      assembled (decide (integer < 0)) (significandOf integer.natAbs)
        (integer.natAbs.log2 - 52) := by
  have positive : integer.natAbs ≠ 0 := Int.natAbs_ne_zero.2 nonzero
  rw [ofInt, ofRatio_eq_assembled positive, binaryOrder_one positive]
  generalize integer.natAbs = number
  have exponent : max leastExponent ((number.log2 : Int) - 52) = number.log2 - 52 := by
    rw [leastExponent]
    omega
  have up : (-((number.log2 : Int) - 52)).toNat = 52 - number.log2 := by omega
  have down : (- -((number.log2 : Int) - 52)).toNat = number.log2 - 52 := by omega
  simp only [exponent, scaleQuotient, up, down, Nat.one_mul, significandOf]

theorem leastFullSignificand_le_significandOf
    {number : Nat}
    (positive : number ≠ 0) :
    leastFullSignificand ≤ significandOf number := by
  apply Nat.le_of_mul_le_mul_right _ (two_pos number.log2)
  rw [significandOf_mul, Nat.mul_comm leastFullSignificand]
  exact Nat.mul_le_mul_right (two 52) (two_log2_le_nearest positive)

theorem significandOf_le
    (number : Nat) :
    significandOf number ≤ significandBound := by
  apply Nat.le_of_mul_le_mul_right _ (two_pos number.log2)
  calc
    significandOf number * two number.log2 = nearest number * two 52 := significandOf_mul number
    _ ≤ two (number.log2 + 1) * two 52 := Nat.mul_le_mul_right _ nearest_le_two_log2_succ
    _ = two 53 * two number.log2 := by rw [← two_add, ← two_add, Nat.add_assoc, Nat.add_comm]
    _ = significandBound * two number.log2 := rfl

/-- A float that an integer is rounded to holds the nearest integer exactly. -/
theorem of_ofInt_eq_finite
    (found : ofInt integer = finite number) :
    number.negative = decide (integer < 0) ∧
      number.magnitude = nearest integer.natAbs * Finite.unitsOfOne := by
  by_cases zero : integer = 0
  · subst zero
    have vanishing : ofInt 0 = finite (Finite.zero false) := rfl
    cases vanishing.symm.trans found
    decide +kernel
  · have above : leastExponent ≤ (integer.natAbs.log2 : Int) - 52 := by
      rw [leastExponent]
      omega
    rw [ofInt_eq_assembled zero] at found
    rcases magnitude_of_assembled above found with ⟨signed, scaled⟩
    have exponent :
        ((integer.natAbs.log2 : Int) - 52 - leastExponent).toNat = integer.natAbs.log2 + 1022 := by
      rw [leastExponent]
      omega
    refine ⟨signed, ?_⟩
    rw [scaled, exponent, two_add, ← Nat.mul_assoc, significandOf_mul, Nat.mul_assoc, ← two_add]
    rfl

/-- Every integer of 64 bits rounds to a finite number. -/
theorem exists_ofInt_eq_finite
    (representable : Word.Representable integer) :
    ∃ number, ofInt integer = finite number := by
  by_cases zero : integer = 0
  · rw [zero]
    exact ⟨Finite.zero false, rfl⟩
  · have positive : integer.natAbs ≠ 0 := Int.natAbs_ne_zero.2 zero
    have order : integer.natAbs.log2 < 64 := by
      rw [Nat.log2_lt positive]
      rcases representable with ⟨low, high⟩
      simp only [Word.signedBound, Word.unsignedBound] at low high
      omega
    rw [ofInt_eq_assembled zero]
    apply exists_assembled (significandOf_le _) (leastFullSignificand_le_significandOf positive)
    · rw [leastExponent]
      omega
    · rw [greatestExponent]
      omega

theorem units_of_ofInt_eq_finite
    (found : ofInt integer = finite number) :
    number.units = nearestInt integer * Finite.unitsOfOne := by
  rcases of_ofInt_eq_finite found with ⟨signed, scaled⟩
  rw [Finite.units, nearestInt, signed, scaled]
  by_cases negative : integer < 0
  · rw [if_pos negative, if_pos (decide_eq_true negative), Int.natCast_mul, Int.neg_mul]
  · have unsigned : ¬ decide (integer < 0) = true := by rwa [decide_eq_true_eq]
    rw [if_neg negative, if_neg unsigned, Int.natCast_mul]

theorem nearestInt_mono
    (ordered : integer ≤ other) :
    nearestInt integer ≤ nearestInt other := by
  have outward : 0 ≤ integer → nearest integer.natAbs ≤ nearest other.natAbs := fun _ =>
    nearest_mono (by omega)
  have inward : other < 0 → nearest other.natAbs ≤ nearest integer.natAbs := fun _ =>
    nearest_mono (by omega)
  simp only [nearestInt]
  split <;> split <;> omega

theorem nearestInt_neg_iff :
    nearestInt integer < 0 ↔ integer < 0 := by
  have vanishes : nearest integer.natAbs = 0 ↔ integer.natAbs = 0 := nearest_eq_zero_iff
  simp only [nearestInt]
  split <;> omega

theorem signs_magnitudes_of_nearestInt_eq
    (same : nearestInt integer = nearestInt other) :
    (integer < 0 ↔ other < 0) ∧ nearest integer.natAbs = nearest other.natAbs := by
  have signs : integer < 0 ↔ other < 0 := by
    rw [← nearestInt_neg_iff, same, nearestInt_neg_iff]
  refine ⟨signs, ?_⟩
  simp only [nearestInt, signs] at same
  split at same <;> omega

/-- Between representable integers the order of the floats is that of the integers they hold. -/
theorem le_ofInt_iff
    (representable : Word.Representable integer)
    (otherRepresentable : Word.Representable other) :
    (ofInt integer).le (ofInt other) = true ↔ nearestInt integer ≤ nearestInt other := by
  rcases exists_ofInt_eq_finite representable with ⟨number, found⟩
  rcases exists_ofInt_eq_finite otherRepresentable with ⟨otherNumber, otherFound⟩
  have one : (0 : Int) < Finite.unitsOfOne := Int.natCast_pos.2 (two_pos 1074)
  rw [found, otherFound, le, decide_eq_true_eq, units_of_ofInt_eq_finite found,
    units_of_ofInt_eq_finite otherFound]
  exact ⟨fun ordered => Int.le_of_mul_le_mul_right ordered one,
    fun ordered => Int.mul_le_mul_of_nonneg_right ordered (Int.le_of_lt one)⟩

/-- Two representable integers are one float exactly when they are rounded to one integer. -/
theorem ofInt_eq_ofInt_iff
    (representable : Word.Representable integer)
    (otherRepresentable : Word.Representable other) :
    ofInt integer = ofInt other ↔ nearestInt integer = nearestInt other := by
  rcases exists_ofInt_eq_finite representable with ⟨number, found⟩
  rcases exists_ofInt_eq_finite otherRepresentable with ⟨otherNumber, otherFound⟩
  have one : (Finite.unitsOfOne : Int) ≠ 0 := Int.natCast_ne_zero.2 (Nat.ne_of_gt (two_pos 1074))
  have units := units_of_ofInt_eq_finite found
  have otherUnits := units_of_ofInt_eq_finite otherFound
  constructor
  · intro same
    rw [found, otherFound] at same
    cases same
    exact Int.eq_of_mul_eq_mul_right one (units.symm.trans otherUnits)
  · intro same
    rcases signs_magnitudes_of_nearestInt_eq same with ⟨signs, magnitudes⟩
    rcases of_ofInt_eq_finite found with ⟨signed, scaled⟩
    rcases of_ofInt_eq_finite otherFound with ⟨otherSigned, otherScaled⟩
    rw [found, otherFound]
    refine congrArg finite (Finite.eq_of_magnitude ?_ ?_)
    · rw [signed, otherSigned]
      exact decide_eq_decide.2 signs
    · rw [scaled, otherScaled, magnitudes]

/-- Rounded integers compare as the integers do, but for those that are rounded to one float. -/
theorem le_ofInt_iff_or_eq
    (representable : Word.Representable integer)
    (otherRepresentable : Word.Representable other) :
    (ofInt integer).le (ofInt other) = true ↔ integer ≤ other ∨ ofInt integer = ofInt other := by
  rw [le_ofInt_iff representable otherRepresentable,
    ofInt_eq_ofInt_iff representable otherRepresentable]
  constructor
  · intro ordered
    rcases Int.le_total integer other with kept | exchanged
    · exact .inl kept
    · exact .inr (Int.le_antisymm ordered (nearestInt_mono exchanged))
  · rintro (ordered | same)
    · exact nearestInt_mono ordered
    · exact Int.le_of_eq same

/-- Integers that are rounded to one differ by at most one part in two to the 52 of the one that is
farther from zero. -/
theorem natAbs_sub_le_of_nearestInt_eq
    (same : nearestInt integer = nearestInt other) :
    leastFullSignificand * (integer - other).natAbs ≤ max integer.natAbs other.natAbs := by
  rcases signs_magnitudes_of_nearestInt_eq same with ⟨signs, magnitudes⟩
  rcases Nat.le_total integer.natAbs other.natAbs with nearer | farther
  · have apart : (integer - other).natAbs = other.natAbs - integer.natAbs := by omega
    rw [apart, Nat.max_eq_right nearer]
    exact sub_le_of_nearest_eq nearer magnitudes
  · have apart : (integer - other).natAbs = integer.natAbs - other.natAbs := by omega
    rw [apart, Nat.max_eq_left farther]
    exact sub_le_of_nearest_eq farther magnitudes.symm

/-- An integer whose magnitude is below two to the 53 is the only one that is rounded to it. -/
theorem eq_of_nearestInt_eq
    (small :
      integer.natAbs < significandBound ∨ other.natAbs < significandBound)
    (same : nearestInt integer = nearestInt other) :
    integer = other := by
  rcases signs_magnitudes_of_nearestInt_eq same with ⟨signs, magnitudes⟩
  have equal : integer.natAbs = other.natAbs := by
    rcases small with small | otherSmall
    · exact eq_of_nearest_eq small magnitudes
    · exact (eq_of_nearest_eq otherSmall magnitudes.symm).symm
  omega

end Integers

end Assortment.Binary64
