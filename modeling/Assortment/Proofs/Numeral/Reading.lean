import Assortment.Proofs.Numeral.Spelling
import Assortment.Rule.Basic

/-!
# Which texts are numbers

A text denotes a number exactly when it spells a numeral in ASCII digits, six blank characters at
its two ends aside.  The shape of a numeral admits the decimal digits of every script, so there are
texts of the right shape that denote nothing; everything that is looked at as a number agrees on
where the line is.

A text that denotes a number as a whole denotes the same number when only its beginning is read.
Blanks at its end are the only difference between the two readings, and no numeral goes on with a
blank.
-/

namespace Assortment.Numeral

open Text

/-- The text without the blanks at its ends. -/
def core (text : String) : List Char :=
  trim isNumericBlank text.toList

/-- A spelling of some numeral in digits of a class. -/
def WrittenIn (digit : Char → Bool) (text : List Char) : Prop :=
  ∃ numeral, Spells numeral text ∧ numeral.digits.all digit = true

variable
    {text : String}
    {numeral : Numeral}
    {number : Binary64}

/-- A text is read to its end as a numeral exactly if it spells that numeral in decimal digits. -/
theorem read_eq_some_nil_iff
    {text : List Char} :
    read text = some (numeral, []) ↔
      Spells numeral text ∧ numeral.digits.all isDecimalDigit = true := by
  constructor
  · intro found
    rcases exists_spells_of_read found with ⟨spelling, spelled, whole, decimal⟩
    rw [List.append_nil] at whole
    exact ⟨whole ▸ spelled, decimal⟩
  · rintro ⟨spelled, decimal⟩
    have found : read (text ++ []) = some (numeral, []) :=
      spelled.read_append decimal (by simp)
    rwa [List.append_nil] at found

theorem isSome_value?_iff :
    numeral.value?.isSome = true ↔ numeral.digits.all Char.isDigit = true := by
  rw [value?]
  split <;> simp [*]

theorem all_isDecimalDigit
    {digits : List Char}
    (ascii : digits.all Char.isDigit = true) :
    digits.all isDecimalDigit = true :=
  List.all_eq_true.2 fun digit listed =>
    isDecimalDigit_of_isDigit (List.all_eq_true.1 ascii digit listed)

/-- A text denotes the number that a numeral spelled by it has as its value. -/
theorem ofText?_eq_some_iff :
    ofText? text = some number ↔
      ∃ numeral, Spells numeral (core text) ∧ numeral.value? = some number := by
  constructor
  · intro denoted
    rw [ofText?] at denoted
    split at denoted
    · next numeral found => exact ⟨numeral, (read_eq_some_nil_iff.1 found).1, denoted⟩
    · cases denoted
  · rintro ⟨numeral, spelled, valued⟩
    have ascii := isSome_value?_iff.1 (Option.isSome_of_eq_some valued)
    have found := read_eq_some_nil_iff.2 ⟨spelled, all_isDecimalDigit ascii⟩
    rw [core] at found
    simp only [ofText?, found, valued]

/-- A text denotes a number exactly if its core is one written in ASCII digits. -/
theorem isSome_ofText?_iff :
    (ofText? text).isSome = true ↔ WrittenIn Char.isDigit (core text) := by
  rw [Option.isSome_iff_exists]
  constructor
  · rintro ⟨number, denoted⟩
    rcases ofText?_eq_some_iff.1 denoted with ⟨numeral, spelled, valued⟩
    exact ⟨numeral, spelled, isSome_value?_iff.1 (Option.isSome_of_eq_some valued)⟩
  · rintro ⟨numeral, spelled, ascii⟩
    rcases Option.isSome_iff_exists.1 (isSome_value?_iff.2 ascii) with ⟨number, valued⟩
    exact ⟨number, ofText?_eq_some_iff.2 ⟨numeral, spelled, valued⟩⟩

/-- A text that denotes a number as a whole begins with that number. -/
theorem leading_eq_of_ofText?
    (denoted : ofText? text = some number) :
    leading text = number := by
  rcases ofText?_eq_some_iff.1 denoted with ⟨numeral, spelled, valued⟩
  have ascii := isSome_value?_iff.1 (Option.isSome_of_eq_some valued)
  rcases exists_trimStart_eq isNumericBlank text.toList with ⟨behind, started, blank⟩
  have found : read (trimStart isNumericBlank text.toList) = some (numeral, behind) := by
    rw [started]
    apply spelled.read_append (all_isDecimalDigit ascii)
    intro character leads
    exact breaks_of_isNumericBlank (blank character (List.mem_of_head? leads))
  simp only [leading, found, Option.bind_some, valued, Option.getD_some]

section Alphabet

variable {character : Char}

/-- The characters of a spelling that are not digits. -/
def marks : List Char := ['+', '-', '.', 'e', 'E']

/-- A text is its core between blanks. -/
theorem exists_core_eq
    (text : String) :
    ∃ before behind,
      text.toList = before ++ core text ++ behind ∧
        ∀ character ∈ before ++ behind, character ∈ blanks := by
  rcases exists_trim_eq isNumericBlank text.toList with ⟨before, behind, whole, blank⟩
  exact ⟨before, behind, whole, fun character outside =>
    isNumericBlank_iff.1 (blank character outside)⟩

theorem Sign.mem_marks
    {negative : Bool}
    {sign : List Char}
    (signed : Sign negative sign)
    (member : character ∈ sign) :
    character ∈ marks := by
  cases signed with
  | absent => cases member
  | plus => rw [List.mem_singleton.1 member]; decide
  | minus => rw [List.mem_singleton.1 member]; decide

/-- A spelling holds the digits of its numeral and marks, and nothing else. -/
theorem Spells.mem_digits_or_marks
    {spelling : List Char}
    (spelled : Spells numeral spelling)
    (member : character ∈ spelling) :
    character ∈ numeral.digits ∨ character ∈ marks := by
  cases spelled with
  | parts signed counted scaled =>
    simp only [digits, List.mem_append]
    rcases List.mem_append.1 member with inSign | behind
    · exact .inr (signed.mem_marks inSign)
    rcases List.mem_append.1 behind with inMantissa | inScale
    · cases counted with
      | whole _ => exact .inl (.inl (.inl inMantissa))
      | pointed _ _ =>
        simp only [List.mem_append, List.mem_cons] at inMantissa
        rcases inMantissa with inWhole | rfl | inFraction
        · exact .inl (.inl (.inl inWhole))
        · exact .inr (by decide)
        · exact .inl (.inl (.inr inFraction))
      | fraction _ =>
        rcases List.mem_cons.1 inMantissa with rfl | inFraction
        · exact .inr (by decide)
        · exact .inl (.inl (.inr inFraction))
    · cases scaled with
      | absent => cases inScale
      | power marked signed _ =>
        simp only [List.mem_append, List.mem_cons] at inScale
        rcases inScale with rfl | inSign | inDigits
        · right
          rcases marked with rfl | rfl <;> decide
        · exact .inr (signed.mem_marks inSign)
        · exact .inl (.inr inDigits)

/-- A text that denotes a number holds blanks, ASCII digits and marks only. -/
theorem mem_of_isSome_ofText?
    (denotes : (ofText? text).isSome = true)
    (member : character ∈ text.toList) :
    character ∈ blanks ∨ character.isDigit = true ∨ character ∈ marks := by
  rcases isSome_ofText?_iff.1 denotes with ⟨numeral, spelled, ascii⟩
  rcases exists_core_eq text with ⟨before, behind, whole, blank⟩
  rw [whole, List.mem_append, List.mem_append] at member
  rcases member with (inFront | inCore) | inBack
  · exact .inl (blank character (List.mem_append_left behind inFront))
  · refine .inr ((spelled.mem_digits_or_marks inCore).imp_left fun digit => ?_)
    exact List.all_eq_true.1 ascii character digit
  · exact .inl (blank character (List.mem_append_right before inBack))

end Alphabet

/--
What decides whether a text is looked at as a number.  The characters leave no room for words such
as those for infinity and for what is not a number, for other blanks or for other digits.
-/
structure DecidedBySpelling (text : String) : Prop where
  stripped :
    ∃ before behind,
      text.toList = before ++ core text ++ behind ∧
        (∀ character ∈ before ++ behind, character ∈ blanks) ∧
        (∀ character ∈ (core text).head?, character ∉ blanks) ∧
        ∀ character ∈ (core text).getLast?, character ∉ blanks
  number_iff :
    (Value.string text).number?.isSome = true ↔ WrittenIn Char.isDigit (core text)
  numeric_iff :
    Criterion.numeric.accepts (.string text) = true ↔ WrittenIn Char.isDigit (core text)
  denotes_iff :
    (ofText? text).isSome = true ↔ WrittenIn Char.isDigit (core text)
  characters :
    (ofText? text).isSome = true →
      ∀ character ∈ text.toList,
        character ∈ blanks ∨ character.isDigit = true ∨ character ∈ marks
  shape_iff :
    (∃ numeral, read (core text) = some (numeral, [])) ↔ WrittenIn isDecimalDigit (core text)

/--
A text is a number, for the reading of values, for the rule on numbers and for the bounds of rules,
exactly when it spells a numeral in ASCII digits between blanks; the shape alone would also admit
the decimal digits of other scripts.
-/
theorem decidedBySpelling
    (text : String) :
    DecidedBySpelling text where
  stripped := by
    rcases exists_core_eq text with ⟨before, behind, whole, blank⟩
    refine ⟨before, behind, whole, blank, ?_, ?_⟩
    · intro character leads listed
      exact Bool.eq_false_iff.1 (head?_trim_not leads) (isNumericBlank_iff.2 listed)
    · intro character closes listed
      exact Bool.eq_false_iff.1 (getLast?_trim_not closes) (isNumericBlank_iff.2 listed)
  number_iff := isSome_ofText?_iff
  numeric_iff := isSome_ofText?_iff
  denotes_iff := isSome_ofText?_iff
  characters := fun denotes _ member => mem_of_isSome_ofText? denotes member
  shape_iff := exists_congr fun _ => read_eq_some_nil_iff

/-- Arabic-Indic digits have the shape of a number and denote none. -/
example : (read "٣".toList).isSome = true ∧ ofText? "٣" = none := by decide +kernel

end Assortment.Numeral
