import Assortment.Proofs.Store

/-!
# Parts of a store

A set of group names marks off the part of a store that holds these groups.  What is written to
groups outside the set does not reach this part, and what is written to groups inside it changes
the part as it would change a store of its own.  Resetting a group respects parts in the same way,
and a query that names groups of the set only is answered from the part alone.

The order of the groups in a part is that of the store, so the statements cover the order in which
groups are listed as well as their rows.
-/

namespace Assortment.Store

variable {keeps : String → Bool}

/-- The part of a store with the groups of a set, in the order of the store. -/
def restrict (keeps : String → Bool) (store : Store) : Store :=
  ⟨store.groups.filter fun name _ => keeps name⟩

theorem group_restrict
    (store : Store)
    {name : String}
    (kept : keeps name = true) :
    (store.restrict keeps).group name = store.group name := by
  rw [group, restrict, OrderedMap.get?_filter_keys, if_pos kept, group]

theorem select_restrict
    (store : Store)
    {names : List String}
    (kept : ∀ name ∈ names, keeps name = true) :
    (store.restrict keeps).select names = store.select names := by
  rw [select, select, restrict, OrderedMap.filter, List.filter_filter]
  apply List.filter_congr
  intro entry _
  cases asked : names.contains entry.1 with
  | false => rfl
  | true => simpa using kept entry.1 (List.contains_iff_mem.1 asked)

/-- Appending to a name that is not kept leaves no trace in what is kept. -/
theorem restrict_appendTo
    (store : Store)
    (rows : List Row)
    (name : String) :
    (store.appendTo rows name).restrict keeps =
      if keeps name then
        (store.restrict keeps).appendTo rows name
      else
        store.restrict keeps := by
  rw [restrict, appendTo, OrderedMap.filter_insert]
  cases kept : keeps name with
  | true =>
    have held := store.group_restrict kept
    rw [group, group] at held
    rw [if_pos rfl, if_pos rfl, appendTo, held, restrict]
  | false => rfl

/-- Only the names of the set count for what an append does to a part. -/
theorem restrict_append
    (store : Store)
    (names : List String)
    (rows : List Row) :
    (store.append names rows).restrict keeps =
      (store.restrict keeps).append (names.filter keeps) rows := by
  induction names generalizing store with
  | nil => rfl
  | cons name rest inductionHypothesis =>
    have others := inductionHypothesis (store.appendTo rows name)
    rw [restrict_appendTo] at others
    refine others.trans ?_
    cases kept : keeps name with
    | true => rw [if_pos rfl, List.filter_cons_of_pos kept]; rfl
    | false => simp [kept]

/-- Resetting a name commutes with keeping some of the names. -/
theorem restrict_reset
    (store : Store)
    (name : String) :
    (store.reset (some name)).restrict keeps = (store.restrict keeps).reset (some name) := by
  rw [restrict, reset, reset, restrict]
  congr 1
  apply OrderedMap.ext
  exact List.filter_comm _ _ _

theorem reset_restrict_of_not_kept
    (store : Store)
    {name : String}
    (dropped : keeps name = false) :
    (store.restrict keeps).reset (some name) = store.restrict keeps := by
  rw [reset, restrict]
  congr 1
  apply OrderedMap.ext
  refine (List.filter_filter ..).trans (List.filter_congr ?_)
  intro entry _
  by_cases same : entry.1 = name
  · simp [same, dropped]
  · simp [same]

end Assortment.Store
