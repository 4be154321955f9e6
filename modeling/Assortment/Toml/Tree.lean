import Assortment.Value.Basic

/-!
# Trees of tables

The statements of a TOML text build a tree.  A table in it comes about in one of three ways: it is
declared by a header of its own, it is implied by the header of a table inside it, or it is made
by a key with points.  What may still be added to a table depends on how it came about: a header
may declare a table that was only implied, and a key with points may go into tables made by such
keys, but neither may reopen a table that has been declared, and nothing may be set twice.

A table that is declared after having been implied takes its place in the order where it is
declared.
-/

namespace Assortment.Toml

/-- How a table came about. -/
inductive Origin where
  | declared
  | implied
  | dotted
  deriving DecidableEq

/-- A part of the tree: a value, a table, or a list of tables that is never empty. -/
inductive Node where
  | value (value : Value)
  | table (origin : Origin) (entries : List (String × Node))
  | tables (earlier : List (List (String × Node))) (last : List (String × Node))

/-- A table as the list of its entries. -/
abbrev Table : Type := List (String × Node)

/-- A path to a key, the key itself, and the value that is set. -/
structure Assignment where
  path : List String
  key : String
  value : Value

/-- What a header declares. -/
inductive Header where
  | table (path : List String) (key : String)
  | element (path : List String) (key : String)

/-- A header with the assignments below it. -/
structure Section where
  header : Header
  assignments : List Assignment

/--
Set a key below a path of further keys.  The flag says whether the table reached so far may be
added to: the one that a section starts from, and the ones made by keys with points.
-/
def assignAt (mayAdd : Bool) (key : String) (value : Value) :
    List String → Table → Option Table
  | [], entries =>
    if mayAdd ∧ (Entries.get? key entries).isNone then
      some (entries ++ [(key, .value value)])
    else
      none
  | part :: rest, entries =>
    match Entries.get? part entries with
    | none =>
      (assignAt true key value rest []).map fun inner =>
        entries ++ [(part, .table .dotted inner)]
    | some (.table .declared _) => none
    | some (.table origin inner) =>
      (assignAt (origin = .dotted) key value rest inner).map fun changed =>
        Entries.put part (.table origin changed) entries
    | some (.tables earlier last) =>
      (assignAt false key value rest last).map fun changed =>
        Entries.put part (.tables earlier changed) entries
    | some (.value _) => none

/-- Make assignments one after the other, up to the first that is not allowed. -/
def assignAll : List Assignment → Table → Option Table
  | [], entries => some entries
  | assignment :: rest, entries =>
    match assignAt true assignment.key assignment.value assignment.path entries with
    | none => none
    | some changed => assignAll rest changed

/-- Change the table at the end of a header's path, making the tables that are implied. -/
def within (change : Table → Option Table) : List String → Table → Option Table
  | [], entries => change entries
  | part :: rest, entries =>
    match Entries.get? part entries with
    | none =>
      (within change rest []).map fun inner => entries ++ [(part, .table .implied inner)]
    | some (.table origin inner) =>
      (within change rest inner).map fun changed =>
        Entries.put part (.table origin changed) entries
    | some (.tables earlier last) =>
      (within change rest last).map fun changed =>
        Entries.put part (.tables earlier changed) entries
    | some (.value _) => none

/-- Declare a table in the entries around it. -/
def declare (key : String) (assignments : List Assignment) (entries : Table) :
    Option Table :=
  let placed (inner : Table) : Table :=
    (entries.filter fun entry => entry.1 != key) ++ [(key, .table .declared inner)]
  match Entries.get? key entries with
  | none => (assignAll assignments []).map placed
  | some (.table .implied inner) => (assignAll assignments inner).map placed
  | some _ => none

/-- Add a table to the list of tables under a key. -/
def addElement (key : String) (assignments : List Assignment) (entries : Table) :
    Option Table :=
  match Entries.get? key entries with
  | none => (assignAll assignments []).map fun inner => entries ++ [(key, .tables [] inner)]
  | some (.tables earlier last) =>
    (assignAll assignments []).map fun inner =>
      Entries.put key (.tables (earlier ++ [last]) inner) entries
  | some _ => none

/-- Build the part of the tree that a section declares. -/
def Section.apply (part : Section) (entries : Table) : Option Table :=
  match part.header with
  | .table path key => within (declare key part.assignments) path entries
  | .element path key => within (addElement key part.assignments) path entries

/-- Open sections one after the other, up to the first that is not allowed. -/
def applyAll : List Section → Table → Option Table
  | [], entries => some entries
  | part :: rest, entries =>
    match part.apply entries with
    | none => none
    | some changed => applyAll rest changed

mutual

/-- The value that a part of the tree stands for. -/
def Node.toValue : Node → Value
  | .value value => value
  | .table _ entries => .object (membersOf entries)
  | .tables earlier last => .array (objectsOf earlier ++ [.object (membersOf last)])

/-- The members of a table as values. -/
def membersOf : List (String × Node) → List (String × Value)
  | [] => []
  | (key, node) :: rest => (key, node.toValue) :: membersOf rest

/-- The elements of a list of tables as objects. -/
def objectsOf : List (List (String × Node)) → List Value
  | [] => []
  | entries :: rest => .object (membersOf entries) :: objectsOf rest

end

end Assortment.Toml
