import Assortment.Proofs.OrderedMap
import Mathlib.Algebra.BigOperators.Ring.List
import Mathlib.Algebra.Ring.Nat
import Mathlib.Data.List.Forall2
import Mathlib.Data.List.Perm.Basic

/-!
# Tuples of a list of lists

A tuple of some lists takes one item from each of them.  `tuples` lists all of them so that the
item of the last list changes fastest.  Read for the places in the lists instead of their items,
this is the strictly increasing lexicographic order: the tuples of some lists are the items at all
tuples of places, and tuples of what stands in a strict order follow each other lexicographically.

A map whose values are lists of candidates has one map of single values for each tuple of its
candidates; `OrderedMap.withValues` puts the items of a tuple under the keys in turn.
-/

namespace Assortment

universe u v w

variable {α : Type u} {β : Type v}

/-- All ways to take one item from each list, the last list changing fastest. -/
def tuples : List (List α) → List (List α)
  | [] => [[]]
  | candidates :: rest => candidates.flatMap fun item => (tuples rest).map (item :: ·)

/-- The tuples of lists are those with an item of each list, in the order of the lists. -/
theorem mem_tuples_iff
    {tuple : List α}
    {lists : List (List α)} :
    tuple ∈ tuples lists ↔ List.Forall₂ (· ∈ ·) tuple lists := by
  induction lists generalizing tuple with
  | nil => simp [tuples]
  | cons candidates rest inductionHypothesis =>
    cases tuple with
    | nil => simp [tuples]
    | cons item others => simp [tuples, inductionHypothesis]

theorem length_tuples
    (lists : List (List α)) :
    (tuples lists).length = (lists.map List.length).prod := by
  induction lists with
  | nil => rfl
  | cons candidates rest inductionHypothesis =>
    simp only [tuples, List.length_flatMap, List.length_map, inductionHypothesis,
      List.map_const', List.sum_replicate_nat, List.map_cons, List.prod_cons]

theorem tuples_eq_nil_of_mem
    {lists : List (List α)}
    (lacking : [] ∈ lists) :
    tuples lists = [] := by
  have factor : 0 ∈ lists.map List.length := List.mem_map.2 ⟨[], lacking, rfl⟩
  rw [← List.length_eq_zero_iff, length_tuples]
  exact List.prod_eq_zero factor

/-- The tuples of a first list that is joined of two are those of the one and then of the other. -/
theorem tuples_append_cons
    (earlier later : List α)
    (rest : List (List α)) :
    tuples ((earlier ++ later) :: rest) = tuples (earlier :: rest) ++ tuples (later :: rest) :=
  List.flatMap_append

/-- The tuples that take an item of two joined lists take it from the one list or the other. -/
theorem perm_tuples_append
    (before after : List (List α))
    (earlier later : List α) :
    (tuples (before ++ (earlier ++ later) :: after)).Perm
      (tuples (before ++ earlier :: after) ++ tuples (before ++ later :: after)) := by
  induction before with
  | nil => exact .of_eq (tuples_append_cons earlier later after)
  | cons candidates rest inductionHypothesis =>
    -- Each item of the first list stands before the tuples of both kinds.
    have each :
        ∀ item ∈ candidates,
          ((tuples (rest ++ (earlier ++ later) :: after)).map (item :: ·)).Perm
            ((tuples (rest ++ earlier :: after)).map (item :: ·) ++
              (tuples (rest ++ later :: after)).map (item :: ·)) := by
      intro item _
      rw [← List.map_append]
      exact inductionHypothesis.map (item :: ·)
    exact (List.Perm.flatMap_left candidates each).trans
      (List.flatMap_append_perm candidates _ _).symm

/-- Where the items of every list are strictly increasing, so are the tuples in the lexicographic
order. -/
theorem pairwise_lex_tuples
    {earlier : α → α → Prop}
    {lists : List (List α)}
    (increasing : ∀ candidates ∈ lists, candidates.Pairwise earlier) :
    (tuples lists).Pairwise (List.Lex earlier) := by
  induction lists with
  | nil => simp [tuples]
  | cons candidates rest inductionHypothesis =>
    have slower := increasing candidates List.mem_cons_self
    have faster :=
      inductionHypothesis fun others listed => increasing others (List.mem_cons_of_mem _ listed)
    rw [tuples, List.pairwise_flatMap]
    constructor
    · intro item _
      rw [List.pairwise_map]
      exact faster.imp List.Lex.cons
    · refine slower.imp ?_
      intro first second before left leftTaken right rightTaken
      rcases List.mem_map.1 leftTaken with ⟨_, _, rfl⟩
      rcases List.mem_map.1 rightTaken with ⟨_, _, rfl⟩
      exact List.Lex.rel before

/-- The items that stand at the given places of some lists. -/
def itemsAt (lists : List (List α)) (places : List Nat) : List α :=
  (lists.zip places).filterMap fun chosen => chosen.1[chosen.2]?

/-- What is made of each item can be made of the item at each place. -/
theorem flatMap_eq_flatMap_range
    (items : List α)
    (make : α → List β) :
    items.flatMap make =
      (List.range items.length).flatMap fun place => items[place]?.toList.flatMap make := by
  induction items with
  | nil => rfl
  | cons item rest inductionHypothesis =>
    simp [List.range_succ_eq_map, List.flatMap_map, inductionHypothesis]

/-- The tuples of some lists are the items at all tuples of places, in the order of the places. -/
theorem tuples_eq_map_itemsAt
    (lists : List (List α)) :
    tuples lists =
      (tuples (lists.map fun items => List.range items.length)).map (itemsAt lists) := by
  induction lists with
  | nil => rfl
  | cons items rest inductionHypothesis =>
    rw [List.map_cons, tuples, tuples, inductionHypothesis, List.map_flatMap,
      flatMap_eq_flatMap_range]
    apply List.flatMap_congr
    intro place listed
    have within : place < items.length := List.mem_range.1 listed
    simp [itemsAt, List.getElem?_eq_getElem within, Function.comp_def]

/-- What a tuple puts under a key is one of the candidates of the key. -/
theorem Entries.exists_candidates_of_mem_zip
    {entries : List (String × List β)}
    {tuple : List β}
    (taken : List.Forall₂ (· ∈ ·) tuple (entries.map Prod.snd))
    {placed : String × β}
    (listed : placed ∈ (Entries.keys entries).zip tuple) :
    ∃ candidates, (placed.1, candidates) ∈ entries ∧ placed.2 ∈ candidates := by
  induction entries generalizing tuple with
  | nil => simp at listed
  | cons entry rest inductionHypothesis =>
    cases taken with
    | cons first others =>
      rcases List.mem_cons.1 listed with rfl | later
      · exact ⟨entry.2, List.mem_cons_self, first⟩
      · rcases inductionHypothesis others later with ⟨candidates, member, chosen⟩
        exact ⟨candidates, List.mem_cons_of_mem _ member, chosen⟩

namespace OrderedMap

/-- The keys of a map with the items of a list under them in turn. -/
def withValues (map : OrderedMap α) (values : List β) : OrderedMap β where
  entries := map.keys.zip values
  distinct := (Entries.keys_zip_sublist map.keys values).nodup map.distinct

/-- The values of a map, in the order of its keys. -/
def values (map : OrderedMap α) : List α :=
  map.entries.map Prod.snd

theorem keys_withValues
    {map : OrderedMap (List β)}
    {tuple : List β}
    (chosen : tuple ∈ tuples map.values) :
    (map.withValues tuple).keys = map.keys := by
  have taken := (mem_tuples_iff.1 chosen).length_eq
  apply List.map_fst_zip
  simpa [keys, Entries.keys, values] using taken.ge

/-- What a map of candidates holds under a key when a tuple is put into it. -/
theorem exists_candidates_of_withValues
    {map : OrderedMap (List β)}
    {tuple : List β}
    (chosen : tuple ∈ tuples map.values)
    {placed : String × β}
    (listed : placed ∈ (map.withValues tuple).entries) :
    ∃ candidates, (placed.1, candidates) ∈ map.entries ∧ placed.2 ∈ candidates :=
  Entries.exists_candidates_of_mem_zip (mem_tuples_iff.1 chosen) listed

theorem withValues_congr
    {γ : Type w}
    {left : OrderedMap α}
    {right : OrderedMap γ}
    (same : left.keys = right.keys)
    (values : List β) :
    left.withValues values = right.withValues values :=
  ext (congrArg (List.zip · values) same)

end OrderedMap

end Assortment
