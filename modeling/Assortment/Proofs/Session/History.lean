import Assortment.Session.Step
import Assortment.Proofs.Store
import Mathlib.Data.List.DropRight

/-!
# The history of a session

What a session holds can be told from the steps that it took.  The steps are first read as a list of
events: a successful run writes rows to groups, and a reset forgets one group or all of them.  Runs
that fail and steps that only ask are no events.

The rows of a group are what was written to it since it was last forgotten.  The groups are those
that were named since they were last forgotten, in the order of their first such naming, whether or
not any row was written with it.  The active groups and the last report are read off the steps in
the same way, without any state that is carried along.
-/

namespace Assortment.Session

/-- What happens to the stored groups. -/
inductive Event where
  | wrote (groups : List String) (rows : List Row)
  | forgot (group : Option String)

namespace Event

/-- Whether a group is forgotten by an event. -/
def covers (name : String) : Event → Bool
  | wrote _ _ => false
  | forgot none => true
  | forgot (some group) => group == name

/-- The groups that an event writes to. -/
def groups : Event → List String
  | wrote groups _ => groups
  | forgot _ => []

/-- The rows that an event adds to a group, which come as often as it is named. -/
def rowsFor (name : String) : Event → List Row
  | wrote groups rows => (List.replicate (groups.count name) rows).flatten
  | forgot _ => []

/-- What an event does to a store. -/
def apply (store : Store) : Event → Store
  | wrote groups rows => store.append groups rows
  | forgot group => store.reset group

end Event

/-- The rows written to a group since the last event that covers it. -/
def rowsSince (name : String) (events : List Event) : List Row :=
  (events.rtakeWhile fun event => !event.covers name).flatMap (Event.rowsFor name)

/-- Every naming of a group that no later event covers, in order. -/
def namings : List Event → List String
  | [] => []
  | event :: later =>
    (event.groups.filter fun name => !later.any (Event.covers name)) ++ namings later

/-- The groups in the order of their first naming that no later event covers. -/
def listedGroups (events : List Event) : List String :=
  (namings events).eraseDups

/-- A later event forgets the rows of a group that it covers, and otherwise adds its own. -/
theorem rowsSince_concat
    (name : String)
    (events : List Event)
    (event : Event) :
    rowsSince name (events ++ [event]) =
      if event.covers name then [] else rowsSince name events ++ event.rowsFor name := by
  rw [rowsSince, rowsSince]
  cases covered : event.covers name with
  | true => rw [List.rtakeWhile_concat_neg _ _ _ (by simp [covered])]; rfl
  | false => rw [List.rtakeWhile_concat_pos _ _ _ (by simp [covered])]; simp

theorem namings_concat
    (events : List Event)
    (event : Event) :
    namings (events ++ [event]) =
      ((namings events).filter fun name => !event.covers name) ++ event.groups := by
  induction events with
  | nil => simp [namings]
  | cons first later inductionHypothesis =>
    rw [List.cons_append, namings, inductionHypothesis, namings, List.filter_append,
      List.append_assoc, List.filter_filter]
    congr 1
    apply List.filter_congr
    intro name _
    simp [Bool.and_comm]

/-- An event changes the groups and the rows of a store as it changes what the history tells. -/
theorem names_apply
    {store : Store}
    {events : List Event}
    (listed : store.names = listedGroups events)
    (event : Event) :
    (event.apply store).names = listedGroups (events ++ [event]) := by
  rw [listedGroups, namings_concat]
  cases event with
  | wrote groups rows =>
    have uncovered :
        ((namings events).filter fun name => !(Event.wrote groups rows).covers name) =
          namings events := by
      simp [Event.covers]
    rw [uncovered]
    exact Store.names_append listed groups rows
  | forgot group =>
    rw [Event.groups, List.append_nil, eraseDups_filter]
    cases group with
    | none => simp [Event.apply, Store.reset, Store.names, Store.empty, Event.covers]; rfl
    | some name =>
      rw [Event.apply, Store.names_reset_some, listed, listedGroups]
      apply List.filter_congr
      intro other _
      simp [Event.covers, bne, Bool.beq_comm]

example :
    listedGroups [.wrote ["a", "b", "a"] [], .forgot (some "a"), .wrote ["a"] []] = ["b", "a"] := by
  decide +kernel

/-- If a group holds the rows of its history, it still does after one more event. -/
theorem group_apply
    {store : Store}
    {events : List Event}
    {name : String}
    (held : store.group name = rowsSince name events)
    (event : Event) :
    (event.apply store).group name = rowsSince name (events ++ [event]) := by
  rw [rowsSince_concat]
  cases event with
  | wrote groups rows => rw [Event.apply, Store.group_append, held]; rfl
  | forgot group =>
    cases group with
    | none => rfl
    | some forgotten =>
      rw [Event.apply, Store.group_reset_some, held]
      by_cases same : forgotten = name
      · simp [Event.covers, same]
      · simp [Event.covers, Event.rowsFor, same]

end Assortment.Session
