import Assortment.Proofs.Content
import Assortment.Proofs.Odometer

/-!
# The saturating count

The number of combinations is found by multiplying the sizes one after the other and cutting every
product off at the greatest count.  Cutting off early does no harm: a later factor of zero still
gives zero, and any other factor leaves the product at or above the greatest count.  So the count is
the true product cut off once.

The main theorem puts together what follows from this: the count does not depend on the order of the
fields, it is zero as soon as a field has no candidate, wherever that field stands, and it is the
number of rows that the odometer shows as long as this number can be told apart from larger ones.
-/

namespace Assortment.Choices

/-- The greatest count is the largest unsigned integer of 128 bits. -/
theorem greatestCount_eq :
    greatestCount = 2 ^ 128 - 1 := rfl

theorem min_mul_min
    (counted size : Nat) :
    min (min counted greatestCount * size) greatestCount =
      min (counted * size) greatestCount := by
  rcases Nat.le_total counted greatestCount with below | above
  · rw [Nat.min_eq_left below]
  · rw [Nat.min_eq_right above]
    rcases Nat.eq_zero_or_pos size with zero | positive
    · simp [zero]
    · have cut : greatestCount ≤ greatestCount * size := Nat.le_mul_of_pos_right _ positive
      have whole : greatestCount ≤ counted * size :=
        Nat.le_trans above (Nat.le_mul_of_pos_right _ positive)
      rw [Nat.min_eq_right cut, Nat.min_eq_right whole]

/-- Cutting off at each step is cutting off once at the end. -/
theorem foldl_cutOff
    (sizes : List Nat)
    (start : Nat) :
    sizes.foldl (fun counted size => min (counted * size) greatestCount)
        (min start greatestCount) =
      min (sizes.foldl (· * ·) start) greatestCount := by
  induction sizes generalizing start with
  | nil => rfl
  | cons size rest inductionHypothesis =>
    rw [List.foldl_cons, List.foldl_cons, min_mul_min, inductionHypothesis]

/-- The true number of combinations. -/
def product (choices : Choices) : Nat :=
  if choices.isEmpty then 0 else choices.sizes.prod

/-- Sizes of which one is zero have the product zero. -/
theorem prod_sizes_eq_zero
    (choices : Choices)
    (lacking : [] ∈ choices.fields.values) :
    choices.sizes.prod = 0 := by
  rcases List.mem_map.1 lacking with ⟨entry, listed, empty⟩
  have factor : 0 ∈ choices.sizes := List.mem_map.2 ⟨entry, listed, by rw [empty]; rfl⟩
  exact List.prod_eq_zero factor

theorem product_of_nonempty
    {choices : Choices}
    (nonempty : choices.fields.entries ≠ []) :
    choices.product = choices.sizes.prod :=
  if_neg (mt List.isEmpty_iff.1 nonempty)

/-- There are no combinations without fields, nor where a field has no candidate. -/
theorem product_eq_zero
    {choices : Choices}
    (without : choices.fields.entries = [] ∨ [] ∈ choices.fields.values) :
    choices.product = 0 := by
  rw [product]
  split
  · rfl
  · next nonempty =>
    rcases without with empty | lacking
    · exact absurd (List.isEmpty_iff.2 empty) nonempty
    · exact choices.prod_sizes_eq_zero lacking

theorem lt_product_iff
    {choices : Choices}
    {number : Nat} :
    number < choices.product ↔
      choices.fields.entries ≠ [] ∧ number < choices.sizes.prod := by
  by_cases empty : choices.fields.entries = []
  · simp [product_eq_zero (.inl empty), empty]
  · simp [product_of_nonempty empty, empty]

/-- The counted combinations are the product, cut off at the greatest count. -/
theorem combinationCount_eq_min
    (choices : Choices) :
    choices.combinationCount = min choices.product greatestCount := by
  rw [combinationCount, product]
  split
  · rfl
  · have start : min 1 greatestCount = 1 := by decide
    rw [List.prod_eq_foldl, ← foldl_cutOff, start]

/-- The list of all combinations is what the odometer shows until it is exhausted. -/
theorem yields_combinations
    (choices : Choices) :
    (Odometer.ofChoices choices).Yields choices.combinations := by
  rw [combinations_eq]
  exact Odometer.yields_ofChoices choices

/-- There are as many combinations as the product says. -/
theorem length_combinations
    (choices : Choices) :
    choices.combinations.length = choices.product := by
  rw [combinations_eq, product]
  split
  · rfl
  · rw [List.length_map, length_tuples, OrderedMap.values, List.map_map]
    rfl

/-- A limit of one word is exceeded by the count exactly when it is exceeded by the product. -/
theorem lt_combinationCount_iff
    {choices : Choices}
    {limit : UInt64} :
    limit.toNat < choices.combinationCount ↔ limit.toNat < choices.product := by
  have small : limit.toNat < greatestCount :=
    Nat.lt_trans limit.toNat_lt (by decide)
  rw [combinationCount_eq_min, Nat.lt_min]
  constructor
  · intro both
    exact both.1
  · intro beyond
    exact ⟨beyond, small⟩

/-- The number of combinations does not depend on the order of the fields. -/
theorem product_congr
    {choices other : Choices}
    (same : other.fields.content = choices.fields.content) :
    other.product = choices.product := by
  have arranged := OrderedMap.content_eq_iff_perm.1 same
  have sameEmpty : other.isEmpty = choices.isEmpty := arranged.isEmpty_eq
  have sameProduct : other.sizes.prod = choices.sizes.prod := (arranged.map _).prod_eq
  rw [product, product, sameEmpty, sameProduct]

/-- What the count of the combinations of some choices is. -/
structure Counted (choices : Choices) : Prop where
  withoutFields :
    choices.fields.entries = [] → choices.combinationCount = 0
  cutOff :
    choices.fields.entries ≠ [] →
      choices.combinationCount = min choices.sizes.prod (2 ^ 128 - 1)
  lacking :
    [] ∈ choices.fields.values → choices.combinationCount = 0
  unordered :
    ∀ other : Choices, other.fields.content = choices.fields.content →
      other.combinationCount = choices.combinationCount
  yielded :
    (Odometer.ofChoices choices).Yields choices.combinations ∧
      (choices.combinations.length < 2 ^ 128 →
        choices.combinationCount = choices.combinations.length)

/-- The count of the combinations of any choices is their number, cut off once. -/
theorem counted
    (choices : Choices) :
    Counted choices where
  withoutFields := by
    intro empty
    rw [combinationCount_eq_min, product_eq_zero (.inl empty), Nat.zero_min]
  cutOff := by
    intro nonempty
    rw [combinationCount_eq_min, product_of_nonempty nonempty, greatestCount_eq]
  lacking := by
    intro without
    rw [combinationCount_eq_min, product_eq_zero (.inr without), Nat.zero_min]
  unordered := by
    intro other same
    rw [combinationCount_eq_min, combinationCount_eq_min, product_congr same]
  yielded := by
    refine ⟨choices.yields_combinations, ?_⟩
    intro small
    have told : choices.product ≤ greatestCount := by
      rw [length_combinations] at small
      exact Nat.le_of_lt_succ small
    rw [combinationCount_eq_min, length_combinations, Nat.min_eq_left told]

-- The product of the first sixteen fields saturates before the field without candidates is reached.
example :
    (ofList <|
      ("abcdefghijklmnop".toList.map fun letter =>
        (String.singleton letter, List.replicate 256 .null)) ++ [("q", [])]).combinationCount =
      0 := by
  decide +kernel

end Assortment.Choices
