/-!
# Cutting and joining text at a mark

Rule lines, parameters and allow-lists are all written with one-character marks between their
parts.  Text is cut here as a list of characters, where every statement is an induction, and the
functions on strings only wrap the lists.

`cut` divides at the first mark and says so by failing when there is none; `splitAt` divides at
every mark and always answers with at least one piece.
-/

namespace Assortment.Text

/-- Divide at the first occurrence of the mark, which belongs to neither side. -/
def cut (mark : Char) : List Char → Option (List Char × List Char)
  | [] => none
  | head :: rest =>
    if head = mark then
      some ([], rest)
    else
      (cut mark rest).map fun sides => (head :: sides.1, sides.2)

/-- The number of bytes that the characters take in UTF-8. -/
def encodedLength : List Char → Nat
  | [] => 0
  | character :: rest => character.utf8Size + encodedLength rest

/-- The pieces between all occurrences of the mark, empty ones included. -/
def splitAt (mark : Char) (text : String) : List String :=
  (text.toList.splitOn mark).map String.ofList

/-- The text without the characters of a class at its beginning. -/
def trimStart (drops : Char → Bool) (text : List Char) : List Char :=
  text.dropWhile drops

/-- The text without the characters of a class at either end. -/
def trim (drops : Char → Bool) (text : List Char) : List Char :=
  ((text.dropWhile drops).reverse.dropWhile drops).reverse

/-- A cut puts the text back together around its mark, and the mark is the first one. -/
theorem cut_eq_some_iff
    {mark : Char}
    {text before after : List Char} :
    cut mark text = some (before, after) ↔
      text = before ++ mark :: after ∧ mark ∉ before := by
  induction text generalizing before with
  | nil => simp [cut]
  | cons head rest inductionHypothesis =>
    by_cases marked : head = mark
    · cases before with
      | nil => simp [cut, marked, eq_comm]
      | cons first others =>
        simp only [cut, marked, if_true, Option.some.injEq, Prod.mk.injEq, List.cons_append,
          List.cons.injEq, List.mem_cons, not_or]
        constructor
        · rintro ⟨impossible, _⟩
          cases impossible
        · rintro ⟨⟨same, _⟩, different, _⟩
          exact absurd same different
    · cases before with
      | nil => simp [cut, marked]
      | cons first others =>
        simp only [cut, marked, if_false, Option.map_eq_some_iff, Prod.mk.injEq, List.cons.injEq,
          List.cons_append, List.mem_cons, not_or]
        constructor
        · rintro ⟨⟨left, right⟩, found, ⟨rfl, rfl⟩, rfl⟩
          rcases inductionHypothesis.1 found with ⟨shape, fresh⟩
          exact ⟨⟨rfl, shape⟩, Ne.symm marked, fresh⟩
        · rintro ⟨⟨rfl, shape⟩, _, fresh⟩
          exact ⟨(others, after), inductionHypothesis.2 ⟨shape, fresh⟩, ⟨rfl, rfl⟩, rfl⟩

/-- What is left behind a cut is shorter than the text, so cutting ends. -/
theorem length_lt_of_cut
    {mark : Char}
    {text before after : List Char}
    (divided : cut mark text = some (before, after)) :
    after.length < text.length := by
  rcases cut_eq_some_iff.1 divided with ⟨rfl, _⟩
  simp only [List.length_append, List.length_cons]
  omega

/-- There is no cut exactly when the mark does not occur. -/
theorem cut_eq_none_iff
    {mark : Char}
    {text : List Char} :
    cut mark text = none ↔ mark ∉ text := by
  induction text with
  | nil => simp [cut]
  | cons head rest inductionHypothesis =>
    by_cases marked : head = mark
    · simp [cut, marked]
    · simp [cut, marked, inductionHypothesis, Ne.symm marked]

end Assortment.Text
