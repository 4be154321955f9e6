import Assortment.Value.Basic

/-!
# Choices

The choices of a run are its fields in order, each with the candidates that it may take.  A
combination takes one candidate for every field, and the number of combinations is the product of
the numbers of candidates.  The count that limits are compared with saturates at the largest
unsigned integer of 128 bits.
-/

namespace Assortment

/-- The candidates of each field, in field order. -/
structure Choices where
  fields : OrderedMap (List Value)
  deriving DecidableEq

namespace Choices

/-- The choices of a run without fields. -/
def empty : Choices := ⟨.empty⟩

/-- Add a field at the end, or replace the candidates of a field that is there. -/
def add (choices : Choices) (field : String) (candidates : List Value) : Choices :=
  ⟨choices.fields.insert field candidates⟩

/-- The choices of a list of fields added in turn. -/
def ofList (fields : List (String × List Value)) : Choices :=
  ⟨.ofList fields⟩

def size (choices : Choices) : Nat :=
  choices.fields.size

def isEmpty (choices : Choices) : Bool :=
  choices.fields.isEmpty

/-- The number of candidates of each field, in field order. -/
def sizes (choices : Choices) : List Nat :=
  choices.fields.entries.map fun entry => entry.2.length

/-- The largest count that is told apart from larger ones. -/
def greatestCount : Nat := 340282366920938463463374607431768211455

/-- The number of combinations, cut off at the greatest count; none when there are no fields. -/
def combinationCount (choices : Choices) : Nat :=
  if choices.isEmpty then
    0
  else
    choices.sizes.foldl (fun counted size => min (counted * size) greatestCount) 1

end Choices

end Assortment
