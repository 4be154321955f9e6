/-!
# Integers of 64 bits

Two ranges of integers matter at the edges of the data: those of a signed and those of an unsigned
word of 64 bits.  Integers themselves are unbounded here; the ranges are predicates.
-/

namespace Assortment.Word

/-- Two to the 63, the first magnitude beyond the signed words. -/
def signedBound : Nat := 9223372036854775808

/-- Two to the 64, the first number beyond the unsigned words. -/
def unsignedBound : Nat := 18446744073709551616

/-- The range of a signed word. -/
def Signed (integer : Int) : Prop :=
  -signedBound ≤ integer ∧ integer < signedBound

instance (integer : Int) : Decidable (Signed integer) :=
  inferInstanceAs (Decidable (_ ∧ _))

/-- The result of signed arithmetic, which there is none of when the words overflow. -/
def signed? (integer : Int) : Option Int :=
  if Signed integer then some integer else none

/-- The integers that data may hold, which are those of a signed or of an unsigned word. -/
def Representable (integer : Int) : Prop :=
  -signedBound ≤ integer ∧ integer < unsignedBound

instance (integer : Int) : Decidable (Representable integer) :=
  inferInstanceAs (Decidable (_ ∧ _))

@[simp]
theorem signed?_eq_some_iff
    {integer word : Int} :
    signed? integer = some word ↔ Signed integer ∧ integer = word := by
  simp [signed?]

end Assortment.Word
