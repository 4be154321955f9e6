import Assortment.Store
import Assortment.Proofs.OrderedMap
import Mathlib.Data.List.Induction

/-!
# Stores by their groups and their rows

A store is determined by the list of its groups and by the rows of each group.  The lemmas of this
file say what appending and resetting do to the one and to the other.  Appending to a list of groups
lists each new group once, at its first place in the list, and gives every group the rows as often
as it occurs in the list.
-/

namespace Assortment

universe u

section FirstOccurrences

variable {α : Type u} [BEq α] [LawfulBEq α]

theorem eraseDups_concat
    (items : List α)
    (item : α) :
    (items ++ [item]).eraseDups =
      if item ∈ items then items.eraseDups else items.eraseDups ++ [item] := by
  rw [List.eraseDups_append]
  by_cases present : item ∈ items
  · simp [List.removeAll, present]
  · simp [List.removeAll, present, List.eraseDups_cons]

theorem eraseDups_filter
    (keeps : α → Bool)
    (items : List α) :
    (items.filter keeps).eraseDups = items.eraseDups.filter keeps := by
  induction items using List.reverseRecOn with
  | nil => rfl
  | append_singleton items item inductionHypothesis =>
    rw [List.filter_append, eraseDups_concat]
    cases kept : keeps item with
    | true =>
      rw [List.filter_cons_of_pos kept, List.filter_nil, eraseDups_concat, inductionHypothesis]
      by_cases present : item ∈ items
      · simp [present, kept]
      · simp [present, kept]
    | false =>
      rw [List.filter_cons_of_neg (by simp [kept]), List.filter_nil, List.append_nil,
        inductionHypothesis]
      split
      · rfl
      · simp [kept]

theorem eraseDups_of_nodup
    {items : List α}
    (distinct : items.Nodup) :
    items.eraseDups = items := by
  induction items with
  | nil => rfl
  | cons item rest inductionHypothesis =>
    rcases List.nodup_cons.1 distinct with ⟨fresh, others⟩
    have kept : (rest.filter fun other => !other == item) = rest := by
      apply List.filter_eq_self.2
      intro other listed
      have different : other ≠ item := by
        rintro rfl
        exact fresh listed
      simp [different]
    rw [List.eraseDups_cons, kept, inductionHypothesis others]

end FirstOccurrences

namespace Store

/-- The names of the groups, in the order of first writing. -/
def names (store : Store) : List String :=
  store.groups.keys

theorem entries_eq_map_names
    (store : Store) :
    store.groups.entries = store.names.map fun name => (name, store.group name) :=
  store.groups.entries_eq_map_keys []

theorem contains_iff_mem_names
    {store : Store}
    {name : String} :
    store.contains name = true ↔ name ∈ store.names :=
  OrderedMap.contains_iff

theorem names_appendTo
    (store : Store)
    (rows : List Row)
    (name : String) :
    (store.appendTo rows name).names =
      if name ∈ store.names then store.names else store.names ++ [name] :=
  OrderedMap.keys_insert store.groups name _

theorem group_appendTo
    (store : Store)
    (rows : List Row)
    (name asked : String) :
    (store.appendTo rows name).group asked =
      if name = asked then store.group asked ++ rows else store.group asked := by
  rw [group, appendTo, OrderedMap.get?_insert]
  split
  · next same => rw [same, Option.getD_some, group]
  · rfl

/-- Appending lists the groups of the list behind those that exist, each at its first place. -/
theorem names_append
    {store : Store}
    {earlier : List String}
    (listed : store.names = earlier.eraseDups)
    (names : List String)
    (rows : List Row) :
    (store.append names rows).names = (earlier ++ names).eraseDups := by
  induction names generalizing store earlier with
  | nil => rw [append, List.foldl_nil, listed, List.append_nil]
  | cons name rest inductionHypothesis =>
    have first : (store.appendTo rows name).names = (earlier ++ [name]).eraseDups := by
      rw [names_appendTo, listed, eraseDups_concat]
      simp
    have others := inductionHypothesis first
    rw [List.append_assoc, List.singleton_append] at others
    exact others

/-- The groups that exist stay in front, and the new ones are listed once each behind them. -/
theorem names_append_eq
    (store : Store)
    (names : List String)
    (rows : List Row) :
    (store.append names rows).names =
      store.names ++ (names.filter fun name => name ∉ store.names).eraseDups := by
  have listed : store.names.eraseDups = store.names := eraseDups_of_nodup store.groups.distinct
  rw [names_append listed.symm, List.eraseDups_append, listed, List.removeAll]
  simp only [List.elem_eq_mem, decide_not]

/-- Appending gives a group the rows as often as it is named. -/
theorem group_append
    (store : Store)
    (names : List String)
    (rows : List Row)
    (asked : String) :
    (store.append names rows).group asked =
      store.group asked ++ (List.replicate (names.count asked) rows).flatten := by
  induction names generalizing store with
  | nil => simp [append]
  | cons name rest inductionHypothesis =>
    have others := inductionHypothesis (store.appendTo rows name)
    rw [group_appendTo] at others
    rw [append, List.foldl_cons]
    refine others.trans ?_
    by_cases same : name = asked
    · simp [same, List.replicate_succ]
    · simp [same]

theorem names_reset_some
    (store : Store)
    (name : String) :
    (store.reset (some name)).names = store.names.filter fun other => other != name := by
  simp only [names, reset, OrderedMap.keys, OrderedMap.erase, OrderedMap.filter, Entries.keys,
    List.filter_map]
  rfl

theorem group_reset_some
    (store : Store)
    (name asked : String) :
    (store.reset (some name)).group asked = if name = asked then [] else store.group asked := by
  rw [group, reset, OrderedMap.get?_erase]
  split
  · rfl
  · rfl

end Store

end Assortment
