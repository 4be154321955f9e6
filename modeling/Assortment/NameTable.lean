import Assortment.OrderedMap

/-!
# Tables sorted by name

The methods of a catalogue, the rules of a method and the counts of a report are listed by name.
A `NameTable` is the list of its entries in strictly increasing order of their names, so it holds
each name once and two tables are equal exactly when they hold the same values under the same
names, whatever the order of insertion was.

Names are compared character by character by code point, which is also the order of their UTF-8
encodings.
-/

namespace Assortment

universe u v

namespace Entries

variable {α : Type u} {β : Type v}

/-- Every name comes before all the names listed after it. -/
def Ascending (entries : List (String × α)) : Prop :=
  entries.Pairwise fun earlier later => earlier.1 < later.1

instance (entries : List (String × α)) : Decidable (Ascending entries) :=
  inferInstanceAs (Decidable (List.Pairwise _ _))

/-- Replace the value under a name, or insert a new entry before all later names. -/
def place (name : String) (value : α) : List (String × α) → List (String × α)
  | [] => [(name, value)]
  | (other, held) :: rest =>
    if other = name then
      (name, value) :: rest
    else if name < other then
      (name, value) :: (other, held) :: rest
    else
      (other, held) :: place name value rest

theorem mem_keys_place
    {name other : String}
    {value : α}
    {entries : List (String × α)} :
    other ∈ keys (place name value entries) ↔ other = name ∨ other ∈ keys entries := by
  induction entries with
  | nil => simp [place]
  | cons entry rest inductionHypothesis =>
    by_cases same : entry.1 = name
    · simp [place, same]
    · by_cases earlier : name < entry.1
      · simp [place, same, earlier]
      · simp only [place, same, earlier, if_false, keys_cons, List.mem_cons, inductionHypothesis]
        exact or_left_comm

theorem ascending_cons_iff
    {entry : String × α}
    {rest : List (String × α)} :
    Ascending (entry :: rest) ↔ (∀ name ∈ keys rest, entry.1 < name) ∧ Ascending rest := by
  simp [Ascending, keys]

/-- Placing an entry keeps the names ascending, so a table can be built by placing. -/
theorem Ascending.place
    {entries : List (String × α)}
    (sorted : Ascending entries)
    (name : String)
    (value : α) :
    Ascending (place name value entries) := by
  induction entries with
  | nil => simp [Entries.place, Ascending]
  | cons entry rest inductionHypothesis =>
    rcases ascending_cons_iff.1 sorted with ⟨first, others⟩
    by_cases same : entry.1 = name
    · subst same
      simp only [Entries.place, if_true]
      exact ascending_cons_iff.2 ⟨first, others⟩
    · by_cases earlier : name < entry.1
      · simp only [Entries.place, same, earlier, if_false, if_true]
        refine ascending_cons_iff.2 ⟨fun later listed => ?_, sorted⟩
        rcases List.mem_cons.1 listed with rfl | listed
        · exact earlier
        · exact String.lt_trans earlier (first later listed)
      · simp only [Entries.place, same, earlier, if_false]
        refine ascending_cons_iff.2 ⟨fun later listed => ?_, inductionHypothesis others⟩
        rcases mem_keys_place.1 listed with rfl | listed
        · exact Std.lt_of_le_of_ne (String.not_lt.1 earlier) same
        · exact first later listed

theorem Ascending.foldl_place
    (entries : List (String × α))
    {built : List (String × α)}
    (sorted : Ascending built) :
    Ascending (entries.foldl (fun held entry => Entries.place entry.1 entry.2 held) built) := by
  induction entries generalizing built with
  | nil => exact sorted
  | cons entry rest inductionHypothesis => exact inductionHypothesis (sorted.place entry.1 entry.2)

theorem get?_place
    (name asked : String)
    (value : α)
    (entries : List (String × α)) :
    get? asked (place name value entries) =
      if name = asked then some value else get? asked entries := by
  induction entries with
  | nil => rfl
  | cons entry rest inductionHypothesis =>
    by_cases replaced : entry.1 = name
    · by_cases same : name = asked
      · simp [place, get?, replaced, same]
      · simp [place, get?, replaced, same]
    · by_cases earlier : name < entry.1
      · simp [place, get?, replaced, earlier]
      · by_cases same : entry.1 = asked
        · subst same
          simp [place, get?, replaced, earlier, Ne.symm replaced]
        · simp [place, get?, replaced, earlier, same, inductionHypothesis]

end Entries

/-- A finite map whose entries are sorted by name. -/
structure NameTable (α : Type u) where
  entries : List (String × α)
  ascending : Entries.Ascending entries := by decide

namespace NameTable

variable {α : Type u} {β : Type v}

@[ext]
theorem ext
    {left right : NameTable α}
    (same : left.entries = right.entries) :
    left = right := by
  cases left
  cases right
  cases same
  rfl

instance [DecidableEq α] : DecidableEq (NameTable α) := fun left right =>
  if same : left.entries = right.entries then
    isTrue (ext same)
  else
    isFalse fun equal => same (congrArg entries equal)

/-- The table without entries. -/
def empty : NameTable α where
  entries := []
  ascending := List.Pairwise.nil

instance : EmptyCollection (NameTable α) := ⟨empty⟩

instance : Inhabited (NameTable α) := ⟨empty⟩

/-- What a table holds under a name. -/
def get? (table : NameTable α) (name : String) : Option α :=
  Entries.get? name table.entries

/-- The names of a table in ascending order. -/
def names (table : NameTable α) : List String :=
  Entries.keys table.entries

def contains (table : NameTable α) (name : String) : Bool :=
  table.names.contains name

def size (table : NameTable α) : Nat :=
  table.entries.length

def isEmpty (table : NameTable α) : Bool :=
  table.entries.isEmpty

/-- Put a value under a name, at the place that the order of the names gives it. -/
def insert (table : NameTable α) (name : String) (value : α) : NameTable α where
  entries := Entries.place name value table.entries
  ascending := table.ascending.place name value

/-- The table of a list of entries inserted in turn; later values win. -/
def ofList (entries : List (String × α)) : NameTable α where
  entries := entries.foldl (fun built entry => Entries.place entry.1 entry.2 built) []
  ascending := Entries.Ascending.foldl_place entries List.Pairwise.nil

/-- Change every value, with its name at hand. -/
def mapValues (change : String → α → β) (table : NameTable α) : NameTable β where
  entries := table.entries.map fun entry => (entry.1, change entry.1 entry.2)
  ascending := by
    unfold Entries.Ascending
    rw [List.pairwise_map]
    exact table.ascending

@[simp]
theorem get?_insert
    (table : NameTable α)
    (name asked : String)
    (value : α) :
    (table.insert name value).get? asked = if name = asked then some value else table.get? asked :=
  Entries.get?_place name asked value table.entries

end NameTable

end Assortment
