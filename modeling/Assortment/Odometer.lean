import Assortment.Choices

/-!
# The odometer of combinations

The combinations of choices are shown one after the other like the readings of an odometer.  Each
field is a wheel that stands at one of its candidates; the last wheel turns at every step, and a
wheel that has gone round returns to its first candidate and turns the wheel before it.  When the
first wheel has gone round the odometer is exhausted and stays so.

A wheel's position is a position of its own candidates by type, so reading it needs no check.
-/

namespace Assortment

/-- A field that stands at one of its candidates. -/
structure Wheel where
  field : String
  candidates : List Value
  position : Fin candidates.length

namespace Wheel

/-- A wheel at its first candidate, if there is one. -/
def start? (field : String) (candidates : List Value) : Option Wheel :=
  if inhabited : 0 < candidates.length then
    some ⟨field, candidates, ⟨0, inhabited⟩⟩
  else
    none

/-- The candidate that a wheel shows. -/
def current (wheel : Wheel) : Value :=
  wheel.candidates[wheel.position]

/-- The wheel one candidate further, unless it stands at the last one. -/
def turn? (wheel : Wheel) : Option Wheel :=
  if within : wheel.position.val + 1 < wheel.candidates.length then
    some { wheel with position := ⟨wheel.position.val + 1, within⟩ }
  else
    none

/-- The wheel turned back to its first candidate. -/
def reset (wheel : Wheel) : Wheel :=
  { wheel with position := ⟨0, Nat.lt_of_le_of_lt (Nat.zero_le _) wheel.position.isLt⟩ }

end Wheel

/-- The wheels at the next combination to be shown, or the end of all combinations. -/
inductive Odometer where
  | showing (wheels : List Wheel)
  | exhausted

namespace Odometer

/-- All wheels at their first candidates, if every field has one. -/
def startAll? : List (String × List Value) → Option (List Wheel)
  | [] => some []
  | (field, candidates) :: rest => do
    let wheel ← Wheel.start? field candidates
    let wheels ← startAll? rest
    return wheel :: wheels

/-- The odometer before the first combination; without fields there are no combinations. -/
def ofChoices (choices : Choices) : Odometer :=
  if choices.isEmpty then
    exhausted
  else
    match startAll? choices.fields.entries with
    | some wheels => showing wheels
    | none => exhausted

/-- The combination that the wheels stand at. -/
def reading (wheels : List Wheel) : Row :=
  OrderedMap.ofList (wheels.map fun wheel => (wheel.field, wheel.current))

/-- Turn the last wheel that can be turned and reset all wheels behind it. -/
def advance? : List Wheel → Option (List Wheel)
  | [] => none
  | wheel :: faster =>
    match advance? faster with
    | some advanced => some (wheel :: advanced)
    | none => wheel.turn?.map fun turned => turned :: faster.map Wheel.reset

/-- The next combination and the odometer behind it. -/
def next? : Odometer → Option (Row × Odometer)
  | exhausted => none
  | showing wheels =>
    let behind :=
      match advance? wheels with
      | some advanced => showing advanced
      | none => exhausted
    some (reading wheels, behind)

/-- At most a number of combinations from here on. -/
def take : Nat → Odometer → List Row
  | 0, _ => []
  | count + 1, odometer =>
    match odometer.next? with
    | none => []
    | some (row, behind) => row :: take count behind

end Odometer

namespace Choices

/-- All combinations, the candidates of the last field changing fastest. -/
def combinations (choices : Choices) : List Row :=
  (Odometer.ofChoices choices).take (choices.sizes.foldl (· * ·) 1)

/-- The first combinations, at most a given number. -/
def firstCombinations (choices : Choices) (count : Nat) : List Row :=
  (Odometer.ofChoices choices).take count

end Choices

end Assortment
