import Assortment.Proofs.Numeral.Reading
import Assortment.Value.Text
import Mathlib.Algebra.Ring.Int.Defs

/-!
# Integers written as text

An integer is spelled by a sign, which may be left out, and by ASCII digits of which the first is no
zero unless it is the only one.  A text that is such a spelling between blanks denotes the integer,
and every integer is denoted by the text that it has as a value.

The reader gathers the digits into a signed word and gives up when the word overflows, which it may
do long before the last digit.  Since digits that follow only lead away from zero, it gives up
exactly when the integer that is spelled is no signed word; and digits of other scripts, which the
shape of an integer admits, have no value that could be gathered.
-/

namespace Assortment

theorem Word.signed_iff
    {integer : Int} :
    Signed integer ↔ -2 ^ 63 ≤ integer ∧ integer < 2 ^ 63 := Iff.rfl

namespace Numeral

open Text

/-- A natural number behind a sign. -/
def signedBy (negative : Bool) (magnitude : Nat) : Int :=
  if negative then -magnitude else magnitude

/-- ASCII digits without a superfluous zero in front. -/
inductive Unpadded : List Char → Prop
  | zero : Unpadded ['0']
  | leading
      {first : Char}
      {rest : List Char}
      (nonzero : first ≠ '0')
      (ascii : (first :: rest).all Char.isDigit = true) :
      Unpadded (first :: rest)

/-- The texts in which an integer can be written. -/
inductive SpellsInteger : Int → List Char → Prop
  | parts
      {negative : Bool}
      {sign digits : List Char}
      (signed : Sign negative sign)
      (unpadded : Unpadded digits) :
      SpellsInteger (signedBy negative (natOfDigits digits)) (sign ++ digits)

/-- A text spells an integer between blanks. -/
def Denotes (text : String) (integer : Int) : Prop :=
  ∃ before spelling behind,
    text.toList = before ++ (spelling ++ behind) ∧
      (∀ character ∈ before ++ behind, character ∈ blanks) ∧ SpellsInteger integer spelling

section Words

variable
    {negative : Bool}
    {magnitude larger : Nat}
    {digit : Char}
    {digits : List Char}
    {word integer : Int}

/-- Signed words reach as far as zero. -/
theorem signed_signedBy_of_le
    (bounded : magnitude ≤ larger)
    (inRange : Word.Signed (signedBy negative larger)) :
    Word.Signed (signedBy negative magnitude) := by
  cases negative <;> simp only [signedBy, Word.Signed] at inRange ⊢ <;> grind

theorem le_ofDigitChars
    (digits : List Char)
    (start : Nat) :
    start ≤ Nat.ofDigitChars 10 digits start := by
  rw [Nat.ofDigitChars_eq_ofDigitChars_zero]
  exact Nat.le_add_right_of_le (Nat.le_mul_of_pos_left start (Nat.pow_pos (by decide)))

theorem ofDigitChars_eq_zero_iff
    (ascii : digits.all Char.isDigit = true) :
    Nat.ofDigitChars 10 digits magnitude = 0 ↔
      magnitude = 0 ∧ digits.any (· != '0') = false := by
  induction digits generalizing magnitude with
  | nil => simp
  | cons digit rest inductionHypothesis =>
    rw [List.all_cons, Bool.and_eq_true, Char.isDigit_iff_toNat] at ascii
    have valueless : digit.toNat - '0'.toNat = 0 ↔ digit = '0' := by
      rw [← Char.toNat_inj]
      omega
    have scaled : 10 * magnitude = 0 ↔ magnitude = 0 := by omega
    rw [Nat.ofDigitChars_cons, inductionHypothesis ascii.2, Nat.add_eq_zero_iff, valueless, scaled]
    simp [and_assoc]

/-- Digits denote zero exactly when none of them is another digit. -/
theorem natOfDigits_eq_zero_iff
    (ascii : digits.all Char.isDigit = true) :
    natOfDigits digits = 0 ↔ digits.any (· != '0') = false := by
  rw [natOfDigits, ofDigitChars_eq_zero_iff ascii]
  exact and_iff_right rfl

/-- Before the digit is added the word is no farther from zero than behind it, so that only the
result needs to be in range. -/
theorem pushDigit?_eq_some_iff :
    pushDigit? negative (signedBy negative magnitude) digit = some word ↔
      digit.isDigit = true ∧ Word.Signed word ∧
        word = signedBy negative (10 * magnitude + (digit.toNat - '0'.toNat)) := by
  have scaled : signedBy negative magnitude * 10 = signedBy negative (10 * magnitude) := by
    cases negative <;> simp only [signedBy] <;> grind
  have moved :
      (if negative then signedBy negative (10 * magnitude) - ↑(digit.toNat - '0'.toNat)
        else signedBy negative (10 * magnitude) + ↑(digit.toNat - '0'.toNat)) =
        signedBy negative (10 * magnitude + (digit.toNat - '0'.toNat)) := by
    cases negative <;> simp only [signedBy] <;> grind
  constructor
  · intro pushed
    simp only [pushDigit?, digitValue?, bind, Option.bind_eq_some_iff, Word.signed?_eq_some_iff,
      Option.ite_none_right_eq_some, Option.some.injEq] at pushed
    rcases pushed with ⟨_, ⟨_, rfl⟩, _, ⟨ascii, rfl⟩, inRange, rfl⟩
    rw [scaled, moved] at inRange ⊢
    exact ⟨ascii, inRange, rfl⟩
  · rintro ⟨ascii, inRange, rfl⟩
    have before : Word.Signed (signedBy negative (10 * magnitude)) :=
      signed_signedBy_of_le (Nat.le_add_right _ _) inRange
    simp only [pushDigit?, digitValue?, bind, scaled, Word.signed?, if_pos before, if_pos ascii,
      Option.bind_some, moved, if_pos inRange]

/-- Pushing digits one by one succeeds exactly if all are digits and the number they spell stays
within 64 bits. -/
theorem foldlM_pushDigit?_eq_some_iff
    (started : Word.Signed (signedBy negative magnitude)) :
    digits.foldlM (pushDigit? negative) (signedBy negative magnitude) = some integer ↔
      digits.all Char.isDigit = true ∧ Word.Signed integer ∧
        integer = signedBy negative (Nat.ofDigitChars 10 digits magnitude) := by
  induction digits generalizing magnitude with
  | nil =>
    simp only [List.foldlM_nil, pure, Option.some.injEq, List.all_nil, Nat.ofDigitChars_nil,
      true_and]
    constructor
    · rintro rfl
      exact ⟨started, rfl⟩
    · rintro ⟨_, rfl⟩
      rfl
  | cons digit rest inductionHypothesis =>
    simp only [List.foldlM_cons, bind, Option.bind_eq_some_iff, pushDigit?_eq_some_iff,
      List.all_cons, Bool.and_eq_true, Nat.ofDigitChars_cons]
    constructor
    · rintro ⟨_, ⟨ascii, inRange, rfl⟩, gathered⟩
      rcases (inductionHypothesis inRange).1 gathered with ⟨others, whole, rfl⟩
      exact ⟨⟨ascii, others⟩, whole, rfl⟩
    · rintro ⟨⟨ascii, others⟩, whole, rfl⟩
      -- the word behind this digit is in range because the final one is
      have inRange := signed_signedBy_of_le (le_ofDigitChars rest _) whole
      exact ⟨_, ⟨ascii, inRange, rfl⟩, (inductionHypothesis inRange).2 ⟨others, whole, rfl⟩⟩

/-- Digits are gathered into a signed word exactly when they are ASCII digits and the integer that
they denote is one. -/
theorem wordOfDigits?_eq_some_iff :
    wordOfDigits? negative digits = some integer ↔
      digits.all Char.isDigit = true ∧ Word.Signed integer ∧
        integer = signedBy negative (natOfDigits digits) := by
  have zero : signedBy negative 0 = 0 := by cases negative <;> rfl
  have started : Word.Signed (signedBy negative 0) := by rw [zero]; decide
  rw [wordOfDigits?, ← zero]
  exact foldlM_pushDigit?_eq_some_iff started

end Words

section Spelling

variable
    {text : String}
    {integer other : Int}
    {digits spelling : List Char}
    {character : Char}

theorem unpadded_iff :
    Unpadded digits ↔ canonicalShape digits = true ∧ digits.all Char.isDigit = true := by
  constructor
  · intro unpadded
    cases unpadded with
    | zero => decide
    | @leading first rest nonzero ascii =>
      rw [List.all_cons, Bool.and_eq_true] at ascii
      simp only [canonicalShape, if_neg nonzero, List.all_cons, ascii.1, ascii.2,
        all_isDecimalDigit ascii.2, Bool.and_self, and_self]
  · rintro ⟨shaped, ascii⟩
    cases digits with
    | nil => cases shaped
    | cons first rest =>
      by_cases zero : first = '0'
      · rw [canonicalShape, if_pos zero, List.isEmpty_iff] at shaped
        rw [shaped, zero]
        exact .zero
      · exact .leading zero ascii

theorem Unpadded.present
    (unpadded : Unpadded digits) :
    digits ≠ [] := by
  cases unpadded <;> exact List.cons_ne_nil _ _

theorem Unpadded.ascii
    (unpadded : Unpadded digits) :
    digits.all Char.isDigit = true :=
  (unpadded_iff.1 unpadded).2

theorem ne_nil_of_writtenIn
    {digit : Char → Bool}
    (written : WrittenIn digit spelling) :
    spelling ≠ [] := by
  rcases written with ⟨_, ⟨_, counted, _⟩, _⟩
  apply List.append_ne_nil_of_right_ne_nil
  apply List.append_ne_nil_of_left_ne_nil
  cases counted with
  | whole present => exact present
  | pointed present _ => exact List.append_ne_nil_of_left_ne_nil present _
  | fraction _ => exact List.cons_ne_nil _ _

theorem writtenIn_of_digits
    {negative : Bool}
    {sign : List Char}
    (signed : Sign negative sign)
    (present : digits ≠ [])
    (ascii : digits.all Char.isDigit = true) :
    WrittenIn Char.isDigit (sign ++ digits) := by
  refine ⟨⟨negative, digits, [], none⟩, ?_, by simpa [Numeral.digits] using ascii⟩
  have spelled := Spells.parts signed (.whole present) .absent
  rwa [List.append_nil] at spelled

/-- The spelling of an integer is that of a number. -/
theorem SpellsInteger.writtenIn
    (spelled : SpellsInteger integer spelling) :
    WrittenIn Char.isDigit spelling := by
  cases spelled with
  | parts signed unpadded => exact writtenIn_of_digits signed unpadded.present unpadded.ascii

/-- The sign and the digits of a spelling are told apart by taking the sign. -/
theorem SpellsInteger.exists_takeSign_eq
    (spelled : SpellsInteger integer spelling) :
    ∃ negative digits,
      takeSign spelling = (negative, digits) ∧ Unpadded digits ∧
        integer = signedBy negative (natOfDigits digits) := by
  cases spelled with
  | @parts negative sign digits signed unpadded =>
    have unsigned :=
      unsigned_of_all_isDecimalDigit unpadded.present (all_isDecimalDigit unpadded.ascii) []
    rw [List.append_nil] at unsigned
    exact ⟨negative, digits, signed.takeSign_append unsigned, unpadded, rfl⟩

theorem spellsInteger_of_takeSign
    (unpadded : Unpadded (takeSign spelling).2) :
    SpellsInteger (signedBy (takeSign spelling).1 (natOfDigits (takeSign spelling).2))
      spelling := by
  rcases exists_sign_of_takeSign spelling with ⟨sign, signed, whole⟩
  have spelled := SpellsInteger.parts signed unpadded
  rwa [← whole] at spelled

theorem mem_of_writtenIn
    (written : WrittenIn Char.isDigit spelling)
    (member : character ∈ spelling) :
    character.isDigit = true ∨ character ∈ marks := by
  rcases written with ⟨numeral, spelled, ascii⟩
  exact (spelled.mem_digits_or_marks member).imp_left (List.all_eq_true.1 ascii character)

/-- A spelling holds no blank. -/
theorem not_isNumericBlank_of_writtenIn
    (written : WrittenIn Char.isDigit spelling)
    (member : character ∈ spelling) :
    isNumericBlank character = false := by
  rcases mem_of_writtenIn written member with digit | mark
  · have decimal := isDecimalDigit_of_isDigit digit
    by_contra blank
    rw [(breaks_of_isNumericBlank (Bool.not_eq_false _ ▸ blank)).1] at decimal
    cases decimal
  · have unblank : ∀ mark ∈ marks, isNumericBlank mark = false := by simp [marks, isNumericBlank]
    exact unblank character mark

/-- The core of a number between blanks is the number. -/
theorem core_eq_of_between
    {before behind : List Char}
    (whole : text.toList = before ++ (spelling ++ behind))
    (outside : ∀ character ∈ before ++ behind, character ∈ blanks)
    (written : WrittenIn Char.isDigit spelling) :
    core text = spelling := by
  rw [core, whole]
  exact trim_between (ne_nil_of_writtenIn written)
    (fun _ => not_isNumericBlank_of_writtenIn written)
    fun character member => isNumericBlank_iff.2 (outside character member)

theorem core_eq_toList
    (written : WrittenIn Char.isDigit text.toList) :
    core text = text.toList := by
  have whole : text.toList = [] ++ (text.toList ++ []) := by simp
  exact core_eq_of_between whole (by simp) written

/-- What is denoted is spelled by what trimming leaves of the text. -/
theorem denotes_iff :
    Denotes text integer ↔ SpellsInteger integer (core text) := by
  constructor
  · rintro ⟨before, spelling, behind, whole, outside, spelled⟩
    rwa [core_eq_of_between whole outside spelled.writtenIn]
  · intro spelled
    rcases exists_core_eq text with ⟨before, behind, whole, outside⟩
    rw [List.append_assoc] at whole
    exact ⟨before, core text, behind, whole, outside, spelled⟩

/-- A text denotes one integer at most. -/
theorem Denotes.unique
    (denoted : Denotes text integer)
    (another : Denotes text other) :
    integer = other := by
  rcases (denotes_iff.1 denoted).exists_takeSign_eq with ⟨_, _, taken, _, rfl⟩
  rcases (denotes_iff.1 another).exists_takeSign_eq with ⟨_, _, takenAgain, _, rfl⟩
  cases taken.symm.trans takenAgain
  rfl

/-- A text is read as an integer when it denotes it and the integer is a signed word. -/
theorem canonicalInt?_eq_some_iff :
    canonicalInt? text = some integer ↔ Denotes text integer ∧ Word.Signed integer := by
  rw [denotes_iff, canonicalInt?, ← core]
  constructor
  · intro found
    rcases Option.ite_none_right_eq_some.1 found with ⟨shaped, gathered⟩
    rcases wordOfDigits?_eq_some_iff.1 gathered with ⟨ascii, inRange, rfl⟩
    exact ⟨spellsInteger_of_takeSign (unpadded_iff.2 ⟨shaped, ascii⟩), inRange⟩
  · rintro ⟨spelled, inRange⟩
    rcases spelled.exists_takeSign_eq with ⟨negative, digits, taken, unpadded, rfl⟩
    simp only [taken, if_pos (unpadded_iff.1 unpadded).1]
    exact wordOfDigits?_eq_some_iff.2 ⟨unpadded.ascii, inRange, rfl⟩

end Spelling

section Printing

variable {number : Nat}

theorem head?_toDigits_ne_zero
    (positive : number ≠ 0) :
    ∀ first ∈ (Nat.toDigits 10 number).head?, first ≠ '0' := by
  induction number using Nat.strong_induction_on with
  | _ number inductionHypothesis =>
    by_cases small : number < 10
    · rw [Nat.toDigits_of_lt_base small]
      simpa using positive
    · rw [Nat.toDigits_of_base_le (by decide) (Nat.le_of_not_lt small),
        List.head?_append_of_ne_nil _ Nat.toDigits_ne_nil]
      exact inductionHypothesis (number / 10) (by omega) (by omega)

theorem unpadded_toDigits
    (number : Nat) :
    Unpadded (Nat.toDigits 10 number) := by
  by_cases zero : number = 0
  · rw [zero]
    exact .zero
  · have ascii : (Nat.toDigits 10 number).all Char.isDigit = true :=
      List.all_eq_true.2 fun _ => Nat.isDigit_of_mem_toDigits (by decide) (by decide)
    have nonzero := head?_toDigits_ne_zero zero
    rcases List.exists_cons_of_ne_nil (@Nat.toDigits_ne_nil number 10) with
      ⟨first, rest, written⟩
    rw [written] at ascii nonzero ⊢
    exact .leading (nonzero first rfl) ascii

/-- The sign that is written for an integer, which is none in front of one that is not negative. -/
def shownSign (negative : Bool) : List Char :=
  if negative then ['-'] else []

theorem sign_shownSign
    (negative : Bool) :
    Sign negative (shownSign negative) := by
  cases negative with
  | true => exact .minus
  | false => exact .absent

/-- An integer is shown as a minus if it is negative, then the digits of its magnitude. -/
theorem toList_repr
    (integer : Int) :
    integer.repr.toList =
      shownSign (decide (integer < 0)) ++ Nat.toDigits 10 integer.natAbs := by
  rw [Int.repr_eq_if]
  split
  · next nonnegative =>
    have magnitude : integer.toNat = integer.natAbs := by omega
    rw [decide_eq_false (Int.not_lt.2 nonnegative), magnitude]
    simp [shownSign]
  · next negative =>
    have magnitude : (-integer).toNat = integer.natAbs := by omega
    rw [decide_eq_true (Int.not_le.1 negative), magnitude]
    simp [shownSign]

theorem signedBy_natAbs
    (integer : Int) :
    signedBy (decide (integer < 0)) integer.natAbs = integer := by
  by_cases negative : integer < 0 <;> simp only [signedBy, negative] <;> grind

theorem writtenIn_repr
    (integer : Int) :
    WrittenIn Char.isDigit integer.repr.toList := by
  have unpadded := unpadded_toDigits integer.natAbs
  rw [toList_repr]
  exact writtenIn_of_digits (sign_shownSign _) unpadded.present unpadded.ascii

/-- The text that an integer has as a value denotes it. -/
theorem denotes_repr
    (integer : Int) :
    Denotes integer.repr integer := by
  have spelled :=
    SpellsInteger.parts (sign_shownSign (decide (integer < 0))) (unpadded_toDigits integer.natAbs)
  rw [natOfDigits, Nat.ofDigitChars_ten_toDigits, signedBy_natAbs, ← toList_repr] at spelled
  exact ⟨[], integer.repr.toList, [], by simp, by simp, spelled⟩

end Printing

/--
A text is read as an integer exactly when it denotes one that is a signed word, and what is read
back from the text of an integer is this integer as long as it is a signed word.
-/
theorem canonical_integer_decided :
    (∀ text integer,
      canonicalInt? text = some integer ↔
        Denotes text integer ∧ -2 ^ 63 ≤ integer ∧ integer < 2 ^ 63) ∧
      (∀ text,
        canonicalInt? text = none ↔
          ¬ ∃ integer, Denotes text integer ∧ -2 ^ 63 ≤ integer ∧ integer < 2 ^ 63) ∧
        ∀ integer,
          canonicalInt? (Value.int integer).text =
            if -2 ^ 63 ≤ integer ∧ integer < 2 ^ 63 then some integer else none := by
  simp only [← Word.signed_iff]
  refine ⟨fun _ _ => canonicalInt?_eq_some_iff, ?_, ?_⟩
  · intro text
    rw [Option.eq_none_iff_forall_ne_some, not_exists]
    exact forall_congr' fun _ => not_congr canonicalInt?_eq_some_iff
  · intro integer
    rw [Value.text]
    split
    · next inRange => exact canonicalInt?_eq_some_iff.2 ⟨denotes_repr integer, inRange⟩
    · next outside =>
      rw [Option.eq_none_iff_forall_ne_some]
      intro other found
      rcases canonicalInt?_eq_some_iff.1 found with ⟨denoted, inRange⟩
      rw [denoted.unique (denotes_repr integer)] at inRange
      exact outside inRange

/-- Digits of another script have the shape of an integer and denote none. -/
example :
    canonicalShape "1\u0663".toList = true ∧ canonicalInt? "1\u0663" = none := by
  decide +kernel

end Numeral

end Assortment
