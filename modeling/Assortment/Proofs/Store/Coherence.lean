import Assortment.Proofs.Session.History
import Mathlib.Data.List.Infix

/-!
# What a store shows of its groups

A store can be asked whether it has a group, for the rows of one, for some of its groups and for all
of them.  A look-up ends at the first group of a name while a selection goes through all groups, so
the answers fit together because no name is listed twice.

The file also says what the two ways to change a store leave alone.  Writing touches the groups that
it names, adds to their rows at the end and lists new groups behind those that exist.  Forgetting
removes one group and leaves the others where they are.  Over any number of steps the groups that
none of them forgets stay in front, in their order, and so do the rows that they had.
-/

namespace Assortment

namespace Store

open Session (Event)

/-- Every answer of a store agrees with the list of its groups, in which no name is repeated. -/
structure Coherent (store : Store) : Prop where
  distinct : (Entries.keys store.groups.entries).Nodup
  contains_iff :
    ∀ name, store.contains name = true ↔ name ∈ Entries.keys store.groups.entries
  group_of_listed :
    ∀ entry ∈ store.groups.entries, store.group entry.1 = entry.2
  group_of_unlisted :
    ∀ name, name ∉ Entries.keys store.groups.entries → store.group name = []
  select_sublist :
    ∀ names, (store.select names).Sublist store.groups.entries
  mem_select_iff :
    ∀ names entry,
      entry ∈ store.select names ↔ entry ∈ store.groups.entries ∧ entry.1 ∈ names
  select_distinct :
    ∀ names, (Entries.keys (store.select names)).Nodup
  select_congr :
    ∀ names others, (∀ name, name ∈ names ↔ name ∈ others) →
      store.select names = store.select others
  read_all : store.read .all = .groups store.groups.entries
  read_one : ∀ name, store.read (.one name) = .group (store.group name)
  read_many : ∀ names, store.read (.many names) = .groups (store.select names)

/-- A store differs from an earlier one by rows that were written to some groups. -/
structure Writes (names : List String) (rows : List Row) (before after : Store) : Prop where
  unnamed :
    ∀ name, name ∉ names →
      after.group name = before.group name ∧ after.contains name = before.contains name
  named :
    ∀ name ∈ names,
      after.group name =
          before.group name ++ (List.replicate (names.count name) rows).flatten ∧
        after.contains name = true
  order :
    after.names =
      before.names ++ (names.filter fun name => name ∉ before.names).eraseDups

/-- A store differs from an earlier one by a group that was forgotten. -/
structure Forgets (name : String) (before after : Store) : Prop where
  gone : after.contains name = false ∧ after.group name = []
  others :
    after.groups.entries = before.groups.entries.filter fun entry => entry.1 ≠ name

/-- What steps leave of a store: the groups that none of them forgets, with the rows they had. -/
structure Keeps (steps : List Event) (before after : Store) : Prop where
  order :
    (before.names.filter fun name => !steps.any (Event.covers name)) <+: after.names
  rows :
    ∀ name, steps.any (Event.covers name) = false → before.group name <+: after.group name

theorem coherent (store : Store) : store.Coherent where
  distinct := store.groups.distinct
  contains_iff _ := OrderedMap.contains_iff
  group_of_listed entry listed := by
    have held : store.groups.get? entry.1 = some entry.2 := OrderedMap.get?_eq_some_iff.2 listed
    rw [group, held, Option.getD_some]
  group_of_unlisted name unlisted := by
    have absent : store.groups.get? name = none := OrderedMap.get?_eq_none_iff.2 unlisted
    rw [group, absent, Option.getD_none]
  select_sublist _ := List.filter_sublist
  mem_select_iff names entry := by
    rw [select, List.mem_filter, List.contains_iff_mem]
  select_distinct _ := store.groups.distinct.sublist (List.filter_sublist.map Prod.fst)
  select_congr names others same := by
    apply List.filter_congr
    intro entry _
    exact Bool.eq_iff_iff.2 (by simpa using same entry.1)
  read_all := rfl
  read_one _ := rfl
  read_many _ := rfl

/-- Appending rows under some names writes to these groups and to no others. -/
theorem writes_append
    (store : Store)
    (names : List String)
    (rows : List Row) :
    Writes names rows store (store.append names rows) where
  unnamed name foreign := by
    refine ⟨?_, Bool.eq_iff_iff.2 ?_⟩
    · rw [group_append, List.count_eq_zero.2 foreign, List.replicate_zero, List.flatten_nil,
        List.append_nil]
    · rw [contains_iff_mem_names, contains_iff_mem_names, names_append_eq]
      simp [foreign]
  named name listed := by
    refine ⟨group_append store names rows name, contains_iff_mem_names.2 ?_⟩
    rw [names_append_eq]
    by_cases present : name ∈ store.names
    · exact List.mem_append_left _ present
    · apply List.mem_append_right
      simp [listed, present]
  order := store.names_append_eq names rows

/-- Resetting a name forgets this group and no other. -/
theorem forgets_reset
    (store : Store)
    (name : String) :
    Forgets name store (store.reset (some name)) where
  gone := by
    refine ⟨Bool.eq_false_iff.2 ?_, ?_⟩
    · rw [ne_eq, contains_iff_mem_names, names_reset_some]
      simp
    · rw [group_reset_some, if_pos rfl]
  others := by
    apply List.filter_congr
    intro entry _
    exact (decide_not).symm

/-- One event keeps the groups that it does not touch, in their order. -/
theorem keeps_apply
    (store : Store)
    (step : Event) :
    Keeps [step] store (step.apply store) where
  order := by
    cases step with
    | wrote names rows =>
      rw [Event.apply, names_append_eq]
      simp [Event.covers]
    | forgot group =>
      cases group with
      | none => simp [Event.covers]
      | some forgotten =>
        have uncovered :
            (store.names.filter fun name =>
                !List.any [Event.forgot (some forgotten)] (Event.covers name)) =
              store.names.filter fun name => name != forgotten := by
          apply List.filter_congr
          intro name _
          simp [Event.covers, bne, Bool.beq_comm]
        rw [Event.apply, names_reset_some, uncovered]
  rows name uncovered := by
    cases step with
    | wrote names rows =>
      rw [Event.apply, group_append]
      exact List.prefix_append _ _
    | forgot group =>
      cases group with
      | none => simp [Event.covers] at uncovered
      | some forgotten =>
        have different : forgotten ≠ name := by simpa [Event.covers] using uncovered
        rw [Event.apply, group_reset_some, if_neg different]

/-- Any number of events keep the groups that none of them touches, in their order. -/
theorem keeps_foldl_apply
    (store : Store)
    (steps : List Event) :
    Keeps steps store (steps.foldl Event.apply store) := by
  induction steps generalizing store with
  | nil => exact ⟨by simp, fun _ _ => List.prefix_rfl⟩
  | cons step later inductionHypothesis =>
    have first := store.keeps_apply step
    have others := inductionHypothesis (step.apply store)
    refine ⟨?_, ?_⟩
    · have remaining := (first.order.filter fun name => !later.any (Event.covers name)).trans
        others.order
      simpa [List.filter_filter, Bool.and_comm] using remaining
    · intro name uncovered
      rw [List.any_cons, Bool.or_eq_false_iff] at uncovered
      exact (first.rows name (by simpa using uncovered.1)).trans (others.rows name uncovered.2)

/--
In a store that any steps lead to, all answers agree with the list of the groups.  Writing and
forgetting change what they name, and whatever steps follow, the groups that none of them forgets
keep their order and their rows.
-/
theorem answers_agree_after
    (events : List Event) :
    let store := events.foldl Event.apply .empty
    store.Coherent ∧
      (∀ names rows, Writes names rows store (store.append names rows)) ∧
      (∀ name, Forgets name store (store.reset (some name))) ∧
      ∀ later, Keeps later store ((events ++ later).foldl Event.apply .empty) := by
  intro store
  refine ⟨store.coherent, store.writes_append, store.forgets_reset, ?_⟩
  intro later
  rw [List.foldl_append]
  exact store.keeps_foldl_apply later

end Store

end Assortment
