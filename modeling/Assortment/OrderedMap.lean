/-!
# Maps in insertion order

A row of a product, the input of a run, the defaults and the templates of a method and the groups
of a store are all finite maps whose order of keys is visible.  An `OrderedMap` is the list of its
entries together with the fact that no key is listed twice, so two maps are equal exactly when
they list the same entries in the same order.

Inserting under a key that is present replaces the value at its place, and inserting under a new
key appends.  The list functions that do this are stated on plain entry lists in
`Assortment.Entries`, because nested values hold such lists as well.
-/

namespace Assortment

universe u v

namespace Entries

variable {α : Type u} {β : Type v}

/-- The keys of a list of entries, in order. -/
def keys (entries : List (String × α)) : List String :=
  entries.map Prod.fst

/-- The value of the first entry with the given key. -/
def get? (key : String) : List (String × α) → Option α
  | [] => none
  | (other, held) :: rest => if other = key then some held else get? key rest

/-- Replace the value under a key where it stands, or append a new entry. -/
def put (key : String) (value : α) : List (String × α) → List (String × α)
  | [] => [(key, value)]
  | (other, held) :: rest =>
    if other = key then
      (key, value) :: rest
    else
      (other, held) :: put key value rest

/-- Entries put in one after the other, so that the last value of a key stands at its first place.
-/
def ofList (entries : List (String × α)) : List (String × α) :=
  entries.foldl (fun built entry => put entry.1 entry.2 built) []

@[simp]
theorem keys_nil : keys ([] : List (String × α)) = [] := rfl

@[simp]
theorem keys_cons
    (entry : String × α)
    (rest : List (String × α)) :
    keys (entry :: rest) = entry.1 :: keys rest := rfl

theorem keys_put
    (key : String)
    (value : α)
    (entries : List (String × α)) :
    keys (put key value entries) =
      if key ∈ keys entries then keys entries else keys entries ++ [key] := by
  induction entries with
  | nil => simp [put]
  | cons entry rest inductionHypothesis =>
    by_cases same : entry.1 = key
    · simp [put, same]
    · by_cases present : key ∈ keys rest
      · simp [put, same, inductionHypothesis, present]
      · simp [put, same, inductionHypothesis, present, Ne.symm same]

theorem nodup_keys_put
    {entries : List (String × α)}
    (distinct : (keys entries).Nodup)
    (key : String)
    (value : α) :
    (keys (put key value entries)).Nodup := by
  rw [keys_put]
  split
  · exact distinct
  · next absent =>
    exact List.nodup_append.2
      ⟨distinct, by simp, fun one present other appended => by
        rw [List.mem_singleton.1 appended]
        rintro rfl
        exact absent present⟩

theorem nodup_keys_foldl_put
    (entries : List (String × α))
    {built : List (String × α)}
    (distinct : (keys built).Nodup) :
    (keys (entries.foldl (fun held entry => put entry.1 entry.2 held) built)).Nodup := by
  induction entries generalizing built with
  | nil => exact distinct
  | cons entry rest inductionHypothesis =>
    exact inductionHypothesis (nodup_keys_put distinct entry.1 entry.2)

theorem get?_put
    (key asked : String)
    (value : α)
    (entries : List (String × α)) :
    get? asked (put key value entries) =
      if key = asked then some value else get? asked entries := by
  induction entries with
  | nil => rfl
  | cons entry rest inductionHypothesis =>
    by_cases replaced : entry.1 = key
    · by_cases same : key = asked
      · simp [put, get?, replaced, same]
      · simp [put, get?, replaced, same]
    · by_cases same : entry.1 = asked
      · subst same
        simp [put, get?, replaced, Ne.symm replaced]
      · simp [put, get?, same, replaced, inductionHypothesis]

theorem get?_isSome_iff
    {key : String}
    {entries : List (String × α)} :
    (get? key entries).isSome ↔ key ∈ keys entries := by
  induction entries with
  | nil => simp [get?]
  | cons entry rest inductionHypothesis =>
    by_cases same : entry.1 = key
    · simp [get?, same]
    · simp [get?, same, inductionHypothesis, Ne.symm same]

end Entries

/-- A finite map that remembers the order in which its keys were first inserted. -/
structure OrderedMap (α : Type u) where
  entries : List (String × α)
  distinct : (Entries.keys entries).Nodup := by decide

namespace OrderedMap

variable {α : Type u} {β : Type v}

@[ext]
theorem ext
    {left right : OrderedMap α}
    (same : left.entries = right.entries) :
    left = right := by
  cases left
  cases right
  cases same
  rfl

instance [DecidableEq α] : DecidableEq (OrderedMap α) := fun left right =>
  if same : left.entries = right.entries then
    isTrue (ext same)
  else
    isFalse fun equal => same (congrArg entries equal)

/-- The map without entries. -/
def empty : OrderedMap α where
  entries := []
  distinct := List.nodup_nil

instance : EmptyCollection (OrderedMap α) := ⟨empty⟩

instance : Inhabited (OrderedMap α) := ⟨empty⟩

/-- What a map holds under a key. -/
def get? (map : OrderedMap α) (key : String) : Option α :=
  Entries.get? key map.entries

/-- The keys of a map, in the order of their first insertion. -/
def keys (map : OrderedMap α) : List String :=
  Entries.keys map.entries

def contains (map : OrderedMap α) (key : String) : Bool :=
  map.keys.contains key

def size (map : OrderedMap α) : Nat :=
  map.entries.length

def isEmpty (map : OrderedMap α) : Bool :=
  map.entries.isEmpty

/-- Replace the value under a key where it stands, or add an entry at the end. -/
def insert (map : OrderedMap α) (key : String) (value : α) : OrderedMap α where
  entries := Entries.put key value map.entries
  distinct := Entries.nodup_keys_put map.distinct key value

/-- The map without the entries that fail a test, the others in their order. -/
def filter (keeps : String → α → Bool) (map : OrderedMap α) : OrderedMap α where
  entries := map.entries.filter fun entry => keeps entry.1 entry.2
  distinct := map.distinct.sublist (List.filter_sublist.map Prod.fst)

/-- The map without a key. -/
def erase (map : OrderedMap α) (key : String) : OrderedMap α :=
  map.filter fun other _ => other != key

/-- The map into which entries were inserted one after the other. -/
def ofList (entries : List (String × α)) : OrderedMap α where
  entries := Entries.ofList entries
  distinct := Entries.nodup_keys_foldl_put entries List.nodup_nil

/-- Change every value, with its key at hand. -/
def mapValues (change : String → α → β) (map : OrderedMap α) : OrderedMap β where
  entries := map.entries.map fun entry => (entry.1, change entry.1 entry.2)
  distinct := by
    have same :
        Entries.keys (map.entries.map fun entry => (entry.1, change entry.1 entry.2)) =
          Entries.keys map.entries := by
      simp [Entries.keys, Function.comp_def]
    rw [same]
    exact map.distinct

@[simp]
theorem keys_insert
    (map : OrderedMap α)
    (key : String)
    (value : α) :
    (map.insert key value).keys = if key ∈ map.keys then map.keys else map.keys ++ [key] :=
  Entries.keys_put key value map.entries

@[simp]
theorem get?_insert
    (map : OrderedMap α)
    (key asked : String)
    (value : α) :
    (map.insert key value).get? asked = if key = asked then some value else map.get? asked :=
  Entries.get?_put key asked value map.entries

end OrderedMap

end Assortment
