import Assortment.Value.Basic

/-!
# Stores of named groups

A store holds lists of rows under group names, in the order in which the groups were first
written.  Rows are only appended.  A group that is reset is forgotten altogether, so it moves to
the end when it is written again.
-/

namespace Assortment

/-- Rows by group, in the order of first writing. -/
structure Store where
  groups : OrderedMap (List Row)
  deriving DecidableEq

/-- Which groups are asked for. -/
inductive Query where
  /-- Every group. -/
  | all
  /-- The rows of one group. -/
  | one (name : String)
  /-- The groups of a list, as far as they exist. -/
  | many (names : List String)
  deriving DecidableEq

/-- What a store answers: groups with their names, or the rows of the one group asked for. -/
inductive View where
  | groups (entries : List (String × List Row))
  | group (rows : List Row)
  deriving DecidableEq

namespace Store

/-- A store that holds no group. -/
def empty : Store := ⟨.empty⟩

/-- Append rows to one group, which is created if need be. -/
def appendTo (store : Store) (rows : List Row) (name : String) : Store :=
  ⟨store.groups.insert name ((store.groups.get? name).getD [] ++ rows)⟩

/-- Append rows to each named group; a name listed twice receives them twice. -/
def append (store : Store) (names : List String) (rows : List Row) : Store :=
  names.foldl (fun written name => written.appendTo rows name) store

/-- Forget one group, or all of them when none is named. -/
def reset (store : Store) : Option String → Store
  | some name => ⟨store.groups.erase name⟩
  | none => empty

/-- The rows of a group, none when it does not exist. -/
def group (store : Store) (name : String) : List Row :=
  (store.groups.get? name).getD []

def contains (store : Store) (name : String) : Bool :=
  store.groups.contains name

/-- The groups named in a list, in the order of the store. -/
def select (store : Store) (names : List String) : List (String × List Row) :=
  store.groups.entries.filter fun entry => names.contains entry.1

/-- The answer to a query. -/
def read (store : Store) : Query → View
  | .all => .groups store.groups.entries
  | .one name => .group (store.group name)
  | .many names => .groups (store.select names)

def isEmpty (store : Store) : Bool :=
  store.groups.isEmpty

end Store

end Assortment
