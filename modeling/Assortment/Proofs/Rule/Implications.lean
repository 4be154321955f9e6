import Assortment.Proofs.Numeral.Integer
import Assortment.Rule.Basic

/-!
# What whole numbers are accepted by

The criteria on whole numbers look at a value in different ways: as text, as digits, as an integer
in canonical notation or as a float.  Where they accept the same values, one of them implies the
other.  A value of digits is not blank and can be read as a number, and so is a value that is an
integer; the flag true, whose text is a one, is the only value for which this fails.  Bounds
therefore never refuse such a value for being no number.
-/

namespace Assortment.Criterion

variable
    {value : Value}
    {text : String}

theorem isDigits_iff :
    isDigits text = true ↔ text.toList ≠ [] ∧ text.toList.all Char.isDigit = true := by
  simp [isDigits]

theorem natural_accepts_iff :
    natural.accepts value = true ↔ ∃ text, value.scalarText? = some text ∧ isDigits text = true := by
  rw [accepts, Option.any_eq_true]

theorem naturalNoZero_accepts_iff :
    naturalNoZero.accepts value = true ↔
      ∃ text,
        value.scalarText? = some text ∧ isDigits text = true ∧
          Numeral.natOfDigits text.toList ≠ 0 := by
  rw [accepts, Option.any_eq_true]
  refine exists_congr fun text => and_congr_right fun _ => ?_
  rw [Bool.and_eq_true]
  refine and_congr_right fun digits => ?_
  rw [ne_eq, Numeral.natOfDigits_eq_zero_iff (isDigits_iff.1 digits).2, Bool.not_eq_false]

/-- The rule for integers accepts the texts that denote a nonzero integer of 64 bits. -/
theorem integer_accepts_string_iff :
    integer.accepts (.string text) = true ↔
      ∃ number, Numeral.Denotes text number ∧ Word.Signed number ∧ number ≠ 0 := by
  rw [accepts, acceptsInteger, Option.any_eq_true]
  simp only [Numeral.canonicalInt?_eq_some_iff, bne_iff_ne, and_assoc]

/-- A value with a text that is not empty is not blank. -/
theorem required_of_scalarText?
    (written : value.scalarText? = some text)
    (present : text ≠ "") :
    required.accepts value = true := by
  cases value with
  | null =>
    cases written
    exact absurd rfl present
  | string characters =>
    cases written
    rw [Value.text] at present
    simpa [accepts, Value.isBlank] using present
  | _ => rfl

theorem numeric_accepts_string
    (written : Numeral.WrittenIn Char.isDigit (Numeral.core text)) :
    numeric.accepts (.string text) = true :=
  Numeral.isSome_ofText?_iff.2 written

theorem required_of_natural
    (accepted : natural.accepts value = true) :
    required.accepts value = true := by
  rcases natural_accepts_iff.1 accepted with ⟨text, written, digits⟩
  refine required_of_scalarText? written ?_
  rintro rfl
  exact (isDigits_iff.1 digits).1 rfl

/-- A natural number is a number, with the exception of true. -/
theorem numeric_of_natural
    (accepted : natural.accepts value = true)
    (different : value ≠ .bool true) :
    numeric.accepts value = true := by
  rcases natural_accepts_iff.1 accepted with ⟨text, written, digits⟩
  cases value with
  | null =>
    cases written
    cases digits
  | bool flag =>
    cases flag with
    | true => exact absurd rfl different
    | false =>
      cases written
      cases digits
  | int _ => rfl
  | float _ => rfl
  | string characters =>
    cases written
    rw [Value.text] at digits
    rcases isDigits_iff.1 digits with ⟨present, ascii⟩
    have spelled := Numeral.writtenIn_of_digits .absent present ascii
    rw [List.nil_append] at spelled
    apply numeric_accepts_string
    rwa [Numeral.core_eq_toList spelled]
  | array _ => cases written
  | object _ => cases written

theorem required_of_integer
    (accepted : integer.accepts value = true) :
    required.accepts value = true := by
  cases value with
  | null => cases accepted
  | string text =>
    rcases integer_accepts_string_iff.1 accepted with
      ⟨_, ⟨before, spelling, behind, whole, _, spelled⟩, _, _⟩
    refine required_of_scalarText? rfl ?_
    rintro rfl
    have empty := (List.append_eq_nil_iff.1 whole.symm).2
    exact Numeral.ne_nil_of_writtenIn spelled.writtenIn (List.append_eq_nil_iff.1 empty).1
  | _ => rfl

theorem numeric_of_integer
    (accepted : integer.accepts value = true)
    (different : value ≠ .bool true) :
    numeric.accepts value = true := by
  cases value with
  | null => cases accepted
  | bool flag =>
    cases flag with
    | true => exact absurd rfl different
    | false => cases accepted
  | int _ => rfl
  | float _ => rfl
  | string text =>
    rcases integer_accepts_string_iff.1 accepted with ⟨_, denoted, _, _⟩
    exact numeric_accepts_string (Numeral.denotes_iff.1 denoted).writtenIn
  | array _ => cases accepted
  | object _ => cases accepted

/-- How the criteria on whole numbers are related at a value. -/
structure WholeNumberRules (value : Value) : Prop where
  naturalNoZero_iff :
    naturalNoZero.accepts value = true ↔
      natural.accepts value = true ∧
        ∃ text, value.scalarText? = some text ∧ Numeral.natOfDigits text.toList ≠ 0
  required_of_natural :
    natural.accepts value = true → required.accepts value = true
  numeric_of_natural :
    natural.accepts value = true → value ≠ .bool true → numeric.accepts value = true
  required_of_integer :
    integer.accepts value = true → required.accepts value = true
  numeric_of_integer :
    integer.accepts value = true → value ≠ .bool true → numeric.accepts value = true
  compared :
    natural.accepts value = true ∨ integer.accepts value = true →
      value ≠ .bool true →
        ∃ number,
          value.number? = some number ∧
            ∀ bound,
              (min bound).accepts value = bound.le number ∧
                (max bound).accepts value = number.le bound

/--
A value of digits or one that is an integer is not blank and, but for the flag true, is a number, so
that bounds compare it; and the criterion that refuses zero is the one on digits with the number
that they denote.
-/
theorem wholeNumberRules
    (value : Value) :
    WholeNumberRules value where
  naturalNoZero_iff := by
    rw [naturalNoZero_accepts_iff, natural_accepts_iff]
    constructor
    · rintro ⟨text, written, digits, nonzero⟩
      exact ⟨⟨text, written, digits⟩, text, written, nonzero⟩
    · rintro ⟨⟨text, written, digits⟩, other, writtenAgain, nonzero⟩
      cases written.symm.trans writtenAgain
      exact ⟨text, written, digits, nonzero⟩
  required_of_natural := required_of_natural
  numeric_of_natural := numeric_of_natural
  required_of_integer := required_of_integer
  numeric_of_integer := numeric_of_integer
  compared := by
    intro whole different
    have numeric : value.number?.isSome = true := by
      rcases whole with natural | integer
      · exact numeric_of_natural natural different
      · exact numeric_of_integer integer different
    rcases Option.isSome_iff_exists.1 numeric with ⟨number, found⟩
    refine ⟨number, found, fun bound => ?_⟩
    simp only [accepts, found, Option.any_some, and_self]

end Assortment.Criterion
