import Assortment.Value.Basic

/-!
# Records as values

A record is written as an object that lists its members by name, or as a list that holds them in
their declared order.  In both forms a member may be left out if it has a default, which in a list
is possible only at the end.  An object may hold unknown members, unless the record is closed; a
list never holds more items than the record has members.

`Record.members?` brings both forms to one: for each declared name, in order, the value given for
it or nothing.  What is missing is then settled member by member.
-/

namespace Assortment.Record

/-- Whether unknown members are refused. -/
inductive Policy where
  | opened
  | closed
  deriving DecidableEq

/-- The given values of the declared members, in declared order. -/
def members? (policy : Policy) (names : List String) (value : Value) :
    Option (List (Option Value)) :=
  match value.object?, value.array? with
  | some members, _ =>
    if policy = .closed ∧ ¬ members.keys.all names.contains then
      none
    else
      some (names.map members.get?)
  | none, some items =>
    if items.length ≤ names.length then
      some (items.map some ++ List.replicate (names.length - items.length) none)
    else
      none
  | none, none => none

variable {α : Type}

/-- Read a member that has to be given. -/
def required (read : Value → Option α) (member : Option Value) : Option α :=
  member.bind read

/-- Read a member that has a default. -/
def withDefault (default : α) (read : Value → Option α) : Option Value → Option α
  | none => some default
  | some value => read value

/-- Read a value that may be null. -/
def nullable (read : Value → Option α) : Value → Option (Option α)
  | .null => some none
  | value => (read value).map some

/-- Read all items of a list, all of which have to be readable. -/
def readAll (read : Value → Option α) : List Value → Option (List α)
  | [] => some []
  | item :: rest =>
    match read item, readAll read rest with
    | some first, some others => some (first :: others)
    | _, _ => none

/-- Read the values of all members, all of which have to be readable. -/
def readMembers (read : Value → Option α) :
    List (String × Value) → Option (List (String × α))
  | [] => some []
  | (key, value) :: rest =>
    match read value, readMembers read rest with
    | some first, some others => some ((key, first) :: others)
    | _, _ => none

/-- Read a list of readable items. -/
def listOf (read : Value → Option α) (value : Value) : Option (List α) :=
  value.array?.bind (readAll read)

/-- Read an object of readable values. -/
def mapOf (read : Value → Option α) (value : Value) : Option (List (String × α)) :=
  value.object?.bind fun members => readMembers read members.entries

end Assortment.Record
