import Assortment.Numeral
import Assortment.Proofs.Text

/-!
# How numbers are written

A numeral is written as a sign, which may be left out, as digits with or without a point, and as a
power of ten, which may be left out too.  `Spells` says so part by part and without any reading; one
numeral has several spellings, and the class of its digits is left open.

The reader takes spellings and nothing else.  What it takes from the front of a text spells the
numeral that it answers with; and a spelling in decimal digits is taken as a whole when the text
behind it does not go on with a digit, a point or the mark of a power.
-/

namespace Assortment.Numeral

open Text

/-- A sign that may be left out, with whether it is a minus. -/
inductive Sign : Bool → List Char → Prop
  | absent : Sign false []
  | plus : Sign false ['+']
  | minus : Sign true ['-']

/-- Digits before a point and digits behind it, of which one kind may be missing, or digits without
a point. -/
inductive Mantissa : List Char → List Char → List Char → Prop
  | whole
      {digits : List Char}
      (present : digits ≠ []) :
      Mantissa digits [] digits
  | pointed
      {digits : List Char}
      (present : digits ≠ [])
      (fraction : List Char) :
      Mantissa digits fraction (digits ++ '.' :: fraction)
  | fraction
      {digits : List Char}
      (present : digits ≠ []) :
      Mantissa [] digits ('.' :: digits)

/-- A power of ten that may be left out, with the sign and the digits of its exponent. -/
inductive Scale : Option (Bool × List Char) → List Char → Prop
  | absent : Scale none []
  | power
      {mark : Char}
      {negative : Bool}
      {sign digits : List Char}
      (marked : mark = 'e' ∨ mark = 'E')
      (signed : Sign negative sign)
      (present : digits ≠ []) :
      Scale (some (negative, digits)) (mark :: (sign ++ digits))

/-- The texts in which a numeral can be written. -/
inductive Spells : Numeral → List Char → Prop
  | parts
      {negative : Bool}
      {whole fraction sign mantissa scale : List Char}
      {power : Option (Bool × List Char)}
      (signed : Sign negative sign)
      (counted : Mantissa whole fraction mantissa)
      (scaled : Scale power scale) :
      Spells ⟨negative, whole, fraction, power⟩ (sign ++ (mantissa ++ scale))

section Characters

variable {character : Char}

/-- Space, tab, line feed, vertical tab, form feed and carriage return. -/
def blanks : List Char := [' ', '\t', '\n', '\x0b', '\x0c', '\r']

theorem isNumericBlank_iff :
    isNumericBlank character = true ↔ character ∈ blanks := by
  have byCode : character ∈ blanks ↔ character.toNat ∈ blanks.map Char.toNat :=
    (List.mem_map_of_injective fun _ _ => Char.toNat_inj.1).symm
  have space : character = ' ' ↔ character.toNat = 32 := Char.toNat_inj.symm
  have codes : blanks.map Char.toNat = [32, 9, 10, 11, 12, 13] := by decide
  rw [byCode, codes, isNumericBlank]
  simp only [Bool.or_eq_true, beq_iff_eq, Bool.and_eq_true, decide_eq_true_eq, space,
    List.mem_cons, List.not_mem_nil, or_false]
  omega

/-- A character with which no spelling can go on. -/
def Breaks (character : Char) : Prop :=
  isDecimalDigit character = false ∧ character ∉ ['.', 'e', 'E']

instance (character : Char) : Decidable (Breaks character) :=
  inferInstanceAs (Decidable (_ ∧ _))

theorem breaks_of_isNumericBlank
    (blank : isNumericBlank character = true) :
    Breaks character := by
  simp only [isNumericBlank_iff, blanks, List.mem_cons, List.not_mem_nil, or_false] at blank
  rcases blank with rfl | rfl | rfl | rfl | rfl | rfl <;> decide

end Characters

section Sign

variable
    {negative : Bool}
    {sign text : List Char}

theorem takeSign_of_unsigned
    (unsigned : ∀ character ∈ text.head?, character ≠ '+' ∧ character ≠ '-') :
    takeSign text = (false, text) := by
  unfold takeSign
  split
  · exact absurd rfl (unsigned '-' rfl).2
  · exact absurd rfl (unsigned '+' rfl).1
  · rfl

/-- A sign in front of a text without one is taken off, and only it. -/
theorem Sign.takeSign_append
    (signed : Sign negative sign)
    (unsigned : ∀ character ∈ text.head?, character ≠ '+' ∧ character ≠ '-') :
    takeSign (sign ++ text) = (negative, text) := by
  cases signed with
  | absent => exact takeSign_of_unsigned unsigned
  | plus => rfl
  | minus => rfl

theorem exists_sign_of_takeSign
    (text : List Char) :
    ∃ sign, Sign (takeSign text).1 sign ∧ text = sign ++ (takeSign text).2 := by
  unfold takeSign
  split
  · exact ⟨_, .minus, rfl⟩
  · exact ⟨_, .plus, rfl⟩
  · exact ⟨_, .absent, rfl⟩

theorem unsigned_of_all_isDecimalDigit
    {digits : List Char}
    (present : digits ≠ [])
    (decimal : digits.all isDecimalDigit = true)
    (rest : List Char) :
    ∀ character ∈ (digits ++ rest).head?, character ≠ '+' ∧ character ≠ '-' := by
  rcases List.exists_cons_of_ne_nil present with ⟨first, others, rfl⟩
  intro character leads
  cases Option.mem_some_iff.1 leads
  have digit : isDecimalDigit first = true := List.all_eq_true.1 decimal first List.mem_cons_self
  constructor <;> rintro rfl <;> revert digit <;> decide

end Sign

section Mantissa

variable {whole fraction mantissa rest text : List Char}

theorem Mantissa.present
    (counted : Mantissa whole fraction mantissa) :
    whole ≠ [] ∨ fraction ≠ [] := by
  cases counted with
  | whole present => exact .inl present
  | pointed present _ => exact .inl present
  | fraction present => exact .inr present

/-- A mantissa begins with a digit or the point, never with a sign. -/
theorem Mantissa.unsigned
    (counted : Mantissa whole fraction mantissa)
    (decimal : whole.all isDecimalDigit = true)
    (rest : List Char) :
    ∀ character ∈ (mantissa ++ rest).head?, character ≠ '+' ∧ character ≠ '-' := by
  cases counted with
  | whole present => exact unsigned_of_all_isDecimalDigit present decimal rest
  | pointed present _ =>
    rw [List.append_assoc]
    exact unsigned_of_all_isDecimalDigit present decimal _
  | fraction _ =>
    intro character leads
    cases Option.mem_some_iff.1 leads
    decide

/-- Digits with a point among them are taken apart at the point. -/
theorem takeDigits_pointed
    (present : whole ≠ [] ∨ fraction ≠ [])
    (wholeDecimal : whole.all isDecimalDigit = true)
    (fractionDecimal : fraction.all isDecimalDigit = true)
    (boundary : ∀ character ∈ rest.head?, isDecimalDigit character = false) :
    takeDigits (whole ++ '.' :: (fraction ++ rest)) = (whole, fraction, rest) := by
  have point :
      ∀ character ∈ ('.' :: (fraction ++ rest)).head?, isDecimalDigit character = false := by
    intro character leads
    cases Option.mem_some_iff.1 leads
    decide
  have inhabited : ¬ (whole = [] ∧ fraction = []) := by
    rintro ⟨noWhole, noFraction⟩
    exact present.elim (absurd noWhole) (absurd noFraction)
  simp only [takeDigits, takeWhile_run wholeDecimal point, dropWhile_run wholeDecimal point,
    takeWhile_run fractionDecimal boundary, dropWhile_run fractionDecimal boundary, if_neg inhabited]

/-- A mantissa in front of a text that does not go on with it is taken off as a whole. -/
theorem Mantissa.takeDigits_append
    (counted : Mantissa whole fraction mantissa)
    (wholeDecimal : whole.all isDecimalDigit = true)
    (fractionDecimal : fraction.all isDecimalDigit = true)
    (boundary : ∀ character ∈ rest.head?, isDecimalDigit character = false ∧ character ≠ '.') :
    takeDigits (mantissa ++ rest) = (whole, fraction, rest) := by
  have undigited : ∀ character ∈ rest.head?, isDecimalDigit character = false :=
    fun character leads => (boundary character leads).1
  cases counted with
  | whole present =>
    simp only [takeDigits, takeWhile_run wholeDecimal undigited,
      dropWhile_run wholeDecimal undigited]
    split
    · exact absurd rfl (boundary '.' rfl).2
    · rfl
  | pointed present _ =>
    rw [List.append_assoc, List.cons_append]
    exact takeDigits_pointed (.inl present) wholeDecimal fractionDecimal undigited
  | fraction present =>
    exact takeDigits_pointed (.inr present) wholeDecimal fractionDecimal undigited

/-- Digits taken off the front of a text form a mantissa. -/
theorem exists_mantissa_of_takeDigits
    (taken : takeDigits text = (whole, fraction, rest))
    (present : whole ≠ [] ∨ fraction ≠ []) :
    ∃ mantissa,
      Mantissa whole fraction mantissa ∧ text = mantissa ++ rest ∧
        whole.all isDecimalDigit = true ∧ fraction.all isDecimalDigit = true := by
  have divided := List.takeWhile_append_dropWhile (p := isDecimalDigit) (l := text)
  rw [takeDigits] at taken
  split at taken
  · next behind pointed =>
    rw [pointed] at divided
    have dividedBehind := List.takeWhile_append_dropWhile (p := isDecimalDigit) (l := behind)
    dsimp only at taken
    split at taken
    · cases taken
      simp at present
    · cases taken
      by_cases started : text.takeWhile isDecimalDigit = []
      · rw [started] at present divided ⊢
        have some := present.resolve_left (absurd rfl)
        refine ⟨_, .fraction some, ?_, rfl, List.all_takeWhile⟩
        rw [List.cons_append, dividedBehind]
        exact divided.symm
      · refine ⟨_, .pointed started _, ?_, List.all_takeWhile, List.all_takeWhile⟩
        rw [List.append_assoc, List.cons_append, dividedBehind]
        exact divided.symm
  · cases taken
    have some := present.resolve_right (absurd rfl)
    exact ⟨_, .whole some, divided.symm, List.all_takeWhile, rfl⟩

end Mantissa

section Scale

variable
    {power : Option (Bool × List Char)}
    {scale rest text : List Char}

/-- The digits of the exponent, none when there is no power. -/
def exponentDigits (power : Option (Bool × List Char)) : List Char :=
  (power.map Prod.snd).getD []

/-- Neither a digit nor a point can stand behind a mantissa. -/
theorem Scale.boundary
    (scaled : Scale power scale)
    (boundary : ∀ character ∈ rest.head?, Breaks character) :
    ∀ character ∈ (scale ++ rest).head?,
      isDecimalDigit character = false ∧ character ≠ '.' := by
  cases scaled with
  | absent =>
    intro character leads
    rcases boundary character leads with ⟨undigited, unmarked⟩
    exact ⟨undigited, List.ne_of_not_mem_cons unmarked⟩
  | power marked _ _ =>
    intro character leads
    cases Option.mem_some_iff.1 leads
    rcases marked with rfl | rfl <;> decide

theorem Scale.takePower_append
    (scaled : Scale power scale)
    (decimal : (exponentDigits power).all isDecimalDigit = true)
    (boundary : ∀ character ∈ rest.head?, Breaks character) :
    takePower (scale ++ rest) = (power, rest) := by
  cases scaled with
  | absent =>
    cases rest with
    | nil => rfl
    | cons character behind =>
      have unmarked := (boundary character rfl).2
      simp only [List.mem_cons, List.not_mem_nil, or_false, not_or] at unmarked
      simp [takePower, unmarked.2]
  | @power mark negative sign digits marked signed present =>
    have inside : digits.all isDecimalDigit = true := decimal
    have undigited : ∀ character ∈ rest.head?, isDecimalDigit character = false :=
      fun character leads => (boundary character leads).1
    have taken := signed.takeSign_append (unsigned_of_all_isDecimalDigit present inside rest)
    rw [List.cons_append, List.append_assoc]
    simp only [takePower, taken, takeWhile_run inside undigited, dropWhile_run inside undigited,
      if_pos (And.intro marked present)]

theorem exists_scale_of_takePower
    (text : List Char) :
    ∃ scale,
      Scale (takePower text).1 scale ∧ text = scale ++ (takePower text).2 ∧
        (exponentDigits (takePower text).1).all isDecimalDigit = true := by
  cases text with
  | nil => exact ⟨[], .absent, rfl, rfl⟩
  | cons mark rest =>
    rw [takePower]
    split
    · next found =>
      rcases exists_sign_of_takeSign rest with ⟨sign, signed, restEq⟩
      refine ⟨_, .power found.1 signed found.2, ?_, List.all_takeWhile⟩
      rw [List.cons_append, List.append_assoc, List.takeWhile_append_dropWhile, ← restEq]
    · exact ⟨[], .absent, rfl, rfl⟩

end Scale

section Read

variable
    {numeral : Numeral}
    {spelling rest text : List Char}

theorem all_digits_iff
    {accepts : Char → Bool} :
    numeral.digits.all accepts = true ↔
      numeral.whole.all accepts = true ∧ numeral.fraction.all accepts = true ∧
        (exponentDigits numeral.power).all accepts = true := by
  simp only [digits, exponentDigits, List.all_append, Bool.and_eq_true, and_assoc]

/-- Reading takes a sign, then digits with their point, and then a power. -/
theorem read_eq_some_iff :
    read text = some (numeral, rest) ↔
      ∃ unsigned scaled,
        takeSign text = (numeral.negative, unsigned) ∧
          takeDigits unsigned = (numeral.whole, numeral.fraction, scaled) ∧
          (numeral.whole ≠ [] ∨ numeral.fraction ≠ []) ∧
          takePower scaled = (numeral.power, rest) := by
  rcases numeral with ⟨negative, whole, fraction, power⟩
  rw [read]
  split
  · next unread missing =>
    simp only [reduceCtorEq, false_iff]
    rintro ⟨unsigned, scaled, signed, counted, present, _⟩
    rw [signed, counted] at missing
    cases missing
    simp at present
  · next first second scaled nonempty counted =>
    constructor
    · intro found
      cases found
      refine ⟨_, scaled, rfl, counted, ?_, rfl⟩
      by_contra missing
      rw [not_or, not_not, not_not] at missing
      exact nonempty missing.1 missing.2
    · rintro ⟨unsigned, scaledAgain, signed, countedAgain, _, powered⟩
      rw [signed] at counted ⊢
      cases counted.symm.trans countedAgain
      rw [powered]

/-- A spelling in decimal digits is read as a whole when the text does not go on with it. -/
theorem Spells.read_append
    (spelled : Spells numeral spelling)
    (decimal : numeral.digits.all isDecimalDigit = true)
    (boundary : ∀ character ∈ rest.head?, Breaks character) :
    read (spelling ++ rest) = some (numeral, rest) := by
  rcases all_digits_iff.1 decimal with ⟨wholeDecimal, fractionDecimal, powerDecimal⟩
  cases spelled with
  | @parts negative whole fraction sign mantissa scale power signed counted scaled =>
    rw [read_eq_some_iff]
    refine ⟨mantissa ++ (scale ++ rest), scale ++ rest, ?_, ?_, counted.present,
      scaled.takePower_append powerDecimal boundary⟩
    · rw [List.append_assoc, List.append_assoc]
      exact signed.takeSign_append (counted.unsigned wholeDecimal _)
    · exact counted.takeDigits_append wholeDecimal fractionDecimal (scaled.boundary boundary)

/-- What is read from the front of a text spells the numeral in decimal digits. -/
theorem exists_spells_of_read
    (found : read text = some (numeral, rest)) :
    ∃ spelling,
      Spells numeral spelling ∧ text = spelling ++ rest ∧
        numeral.digits.all isDecimalDigit = true := by
  rcases read_eq_some_iff.1 found with ⟨unsigned, scaled, signed, counted, present, powered⟩
  rcases exists_sign_of_takeSign text with ⟨sign, isSign, textEq⟩
  rcases exists_mantissa_of_takeDigits counted present with
    ⟨mantissa, isMantissa, unsignedEq, wholeDecimal, fractionDecimal⟩
  rcases exists_scale_of_takePower scaled with ⟨scale, isScale, scaledEq, powerDecimal⟩
  rw [signed] at isSign textEq
  rw [powered] at isScale scaledEq powerDecimal
  refine ⟨sign ++ (mantissa ++ scale), .parts isSign isMantissa isScale, ?_,
    all_digits_iff.2 ⟨wholeDecimal, fractionDecimal, powerDecimal⟩⟩
  rw [textEq, unsignedEq, scaledEq]
  simp only [List.append_assoc]

end Read

end Assortment.Numeral
