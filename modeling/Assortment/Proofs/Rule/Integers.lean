import Assortment.Proofs.Binary64.Integers
import Assortment.Proofs.Rule.Implications

/-!
# Which integers the criterion on integers accepts

Integers are looked at as signed words.  An integer of the data that is one is accepted as it is; any
other is looked at as a float, and a float that an integer beyond the signed words is rounded to lies
beyond them too.  A text is accepted when it denotes a signed word other than zero.

The criterion on digits reads the text of a value and knows no such limit, so it accepts the integers
from two to the 63 on, which the criterion on integers refuses.
-/

namespace Assortment.Criterion

variable {number : Int}

/-- An integer that is no signed word is rounded to a float that is none. -/
theorem floatInWord_ofInt_eq_false
    (outside : ¬ Word.Signed number) :
    acceptsInteger.floatInWord (Binary64.ofInt number) = false := by
  cases rounded : Binary64.ofInt number with
  | infinite _ => rfl
  | finite float =>
    have large : Word.signedBound ≤ number.natAbs := by
      simp only [Word.Signed] at outside
      omega
    have kept : Binary64.nearest Word.signedBound = Word.signedBound := by decide +kernel
    have beyond : Word.signedBound ≤ Binary64.nearest number.natAbs := by
      rw [← kept]
      exact Binary64.nearest_mono large
    have scaled := (Binary64.of_ofInt_eq_finite rounded).2
    have bounded : ¬ float.magnitude < Word.signedBound * Binary64.Finite.unitsOfOne := by
      rw [scaled, Nat.not_lt]
      exact Nat.mul_le_mul_right _ beyond
    simp only [acceptsInteger.floatInWord, decide_eq_false bounded, Bool.and_false]

/-- The rule for integers accepts exactly the numbers of 64 bits with a sign. -/
theorem integer_accepts_int_iff :
    integer.accepts (.int number) = true ↔ Word.Signed number := by
  rw [accepts, acceptsInteger, Bool.or_eq_true, decide_eq_true_eq]
  refine or_iff_left_of_imp fun whole => ?_
  refine Decidable.byContradiction fun outside => ?_
  rw [floatInWord_ofInt_eq_false outside] at whole
  cases whole

/-- Only a positive integer is written in digits that are not all zero. -/
theorem naturalNoZero_accepts_int_iff :
    naturalNoZero.accepts (.int number) = true ↔ 0 < number := by
  have written : Value.scalarText? (.int number) = some number.repr := rfl
  rw [naturalNoZero_accepts_iff, written]
  simp only [Option.some.injEq, exists_eq_left', isDigits_iff, Numeral.toList_repr]
  by_cases negative : number < 0
  · have signed : Numeral.shownSign (decide (number < 0)) = ['-'] := by
      rw [decide_eq_true negative]
      rfl
    simp only [signed, List.all_append]
    constructor
    · rintro ⟨⟨_, digits⟩, _⟩
      cases digits
    · intro positive
      omega
  · have unsigned : Numeral.shownSign (decide (number < 0)) = [] := by
      rw [decide_eq_false negative]
      rfl
    have unpadded := Numeral.unpadded_toDigits number.natAbs
    rw [unsigned, List.nil_append, Numeral.natOfDigits, Nat.ofDigitChars_ten_toDigits]
    constructor
    · rintro ⟨_, nonzero⟩
      omega
    · intro positive
      exact ⟨⟨unpadded.present, unpadded.ascii⟩, by omega⟩

/--
The criterion on integers accepts the integers that are signed words, in the data with zero and as
texts without it.  Up to there it accepts all integers that the criterion on digits without zero
accepts, which are the positive ones.
-/
theorem signed_integers_accepted :
    (∀ number,
      integer.accepts (.int number) = true ↔ -2 ^ 63 ≤ number ∧ number < 2 ^ 63) ∧
      (∀ text,
        integer.accepts (.string text) = true ↔
          ∃ number,
            Numeral.Denotes text number ∧ (-2 ^ 63 ≤ number ∧ number < 2 ^ 63) ∧ number ≠ 0) ∧
        ∀ number,
          naturalNoZero.accepts (.int number) = true →
            (integer.accepts (.int number) = true ↔ number < 2 ^ 63) := by
  refine ⟨fun _ => integer_accepts_int_iff, fun _ => integer_accepts_string_iff, ?_⟩
  intro number accepted
  have positive := naturalNoZero_accepts_int_iff.1 accepted
  rw [integer_accepts_int_iff, Word.signed_iff]
  omega

/-- The greatest signed word is accepted by both criteria. -/
theorem greatest_word_accepted :
    naturalNoZero.accepts (.int 9223372036854775807) = true ∧
      (9223372036854775807 : Int) < 2 ^ 63 ∧
      integer.accepts (.int 9223372036854775807) = true := by
  have accepted : naturalNoZero.accepts (.int 9223372036854775807) = true := by decide +kernel
  have bounded : (9223372036854775807 : Int) < 2 ^ 63 := by decide
  exact ⟨accepted, bounded, (signed_integers_accepted.2.2 _ accepted).2 bounded⟩

/-- The integer behind the signed words is one of the data and accepted for its digits, and is
refused both as a number and as a text that denotes it. -/
theorem first_unsigned_refused :
    Word.Representable 9223372036854775808 ∧
      naturalNoZero.accepts (.int 9223372036854775808) = true ∧
      integer.accepts (.int 9223372036854775808) = false ∧
      Numeral.Denotes "9223372036854775808" 9223372036854775808 ∧
      integer.accepts (.string "9223372036854775808") = false := by
  refine ⟨by decide, by decide +kernel, by decide +kernel, ?_, by decide +kernel⟩
  exact Numeral.denotes_repr 9223372036854775808

end Assortment.Criterion
