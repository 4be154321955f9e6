import Assortment.OrderedMap
import Mathlib.Data.List.Nodup

/-!
# Ordered maps by their keys and their values

A map in insertion order is determined by the list of its keys and by what it holds under each of
them.  Most statements about maps that are built step by step are proved in these two halves, which
the extensionality theorem of this file puts together.

The other half of the file says where an insertion leaves its entry: behind all others when the
key is new, and in the place of the old entry when it is not.  Keeping only some of the keys
commutes with insertion, because neither changes the order of the entries that stay.
-/

namespace Assortment

universe u v

namespace Entries

variable {α : Type u} {β : Type v}

@[simp]
theorem keys_append
    (earlier later : List (String × α)) :
    keys (earlier ++ later) = keys earlier ++ keys later :=
  List.map_append

/-- Keys that are paired with the values of a list keep their order, and some may be left over. -/
theorem keys_zip_sublist
    (names : List String)
    (values : List α) :
    (keys (names.zip values)).Sublist names := by
  induction names generalizing values with
  | nil => simp
  | cons name rest inductionHypothesis =>
    cases values with
    | nil => simp
    | cons value others => exact (inductionHypothesis others).cons_cons name

theorem mem_keys_of_mem
    {entry : String × α}
    {entries : List (String × α)}
    (listed : entry ∈ entries) :
    entry.1 ∈ keys entries :=
  List.mem_map_of_mem listed

theorem get?_eq_none_iff
    {key : String}
    {entries : List (String × α)} :
    get? key entries = none ↔ key ∉ keys entries := by
  rw [← get?_isSome_iff, Option.not_isSome_iff_eq_none]

/-- With distinct keys, a value is found under a key exactly when the two are an entry. -/
theorem get?_eq_some_iff
    {key : String}
    {value : α}
    {entries : List (String × α)}
    (distinct : (keys entries).Nodup) :
    get? key entries = some value ↔ (key, value) ∈ entries := by
  induction entries with
  | nil => simp [get?]
  | cons entry rest inductionHypothesis =>
    rcases List.nodup_cons.1 distinct with ⟨fresh, others⟩
    by_cases same : entry.1 = key
    · subst same
      constructor
      · intro held
        have equal : entry.2 = value := by simpa [get?] using held
        subst equal
        exact List.mem_cons_self
      · intro listed
        rcases List.mem_cons.1 listed with equal | later
        · have held : value = entry.2 := congrArg Prod.snd equal
          simp [get?, held]
        · exact absurd (mem_keys_of_mem later) fresh
    · have elsewhere : (key, value) ≠ entry := by
        rintro rfl
        exact same rfl
      simp [get?, same, inductionHypothesis others, elsewhere]

/-- Entries of which only one gives anything give what that one gives. -/
theorem flatMap_eq_of_mem
    {give : String × α → List β}
    {entry : String × α}
    {entries : List (String × α)}
    (distinct : (keys entries).Nodup)
    (listed : entry ∈ entries)
    (others : ∀ other ∈ entries, other.1 ≠ entry.1 → give other = []) :
    entries.flatMap give = give entry := by
  induction entries with
  | nil => cases listed
  | cons first rest inductionHypothesis =>
    rcases List.nodup_cons.1 distinct with ⟨fresh, distinctRest⟩
    rw [List.flatMap_cons]
    rcases List.mem_cons.1 listed with rfl | later
    · have silent : rest.flatMap give = [] := by
        rw [List.flatMap_eq_nil_iff]
        intro other member
        refine others other (List.mem_cons_of_mem _ member) ?_
        intro same
        exact fresh (same ▸ mem_keys_of_mem member)
      rw [silent, List.append_nil]
    · have different : first.1 ≠ entry.1 := by
        intro same
        exact fresh (same ▸ mem_keys_of_mem later)
      have behind :=
        inductionHypothesis distinctRest later fun other member =>
          others other (List.mem_cons_of_mem _ member)
      rw [others first List.mem_cons_self different, List.nil_append, behind]

theorem get?_filter_keys
    (keeps : String → Bool)
    (asked : String)
    (entries : List (String × α)) :
    get? asked (entries.filter fun entry => keeps entry.1) =
      if keeps asked then get? asked entries else none := by
  induction entries with
  | nil => simp [get?]
  | cons entry rest inductionHypothesis =>
    rw [List.filter_cons]
    by_cases found : entry.1 = asked
    · subst found
      cases kept : keeps entry.1 with
      | true => simp [get?]
      | false => simp [inductionHypothesis, kept]
    · cases keeps entry.1 <;> simp [get?, found, inductionHypothesis]

/-- A filter on keys passes through an insertion, which it undoes when it drops the key. -/
theorem filter_put
    (keeps : String → Bool)
    (key : String)
    (value : α)
    (entries : List (String × α)) :
    (put key value entries).filter (fun entry => keeps entry.1) =
      if keeps key then
        put key value (entries.filter fun entry => keeps entry.1)
      else
        entries.filter fun entry => keeps entry.1 := by
  induction entries with
  | nil => cases kept : keeps key <;> simp [put, kept]
  | cons entry rest inductionHypothesis =>
    by_cases same : entry.1 = key
    · cases kept : keeps key <;> simp [put, same, kept]
    · rw [put, if_neg same, List.filter_cons, inductionHypothesis, List.filter_cons]
      cases keeps entry.1 <;> cases keeps key <;> simp [put, same]

theorem put_of_not_mem
    {key : String}
    {entries : List (String × α)}
    (value : α)
    (fresh : key ∉ keys entries) :
    put key value entries = entries ++ [(key, value)] := by
  induction entries with
  | nil => rfl
  | cons entry rest inductionHypothesis =>
    rcases not_or.1 (mt List.mem_cons.2 fresh) with ⟨other, later⟩
    simp [put, Ne.symm other, inductionHypothesis later]

/-- An entry of a known key is replaced where it stands. -/
theorem put_of_mem
    {key : String}
    {entries : List (String × α)}
    (value : α)
    (distinct : (keys entries).Nodup)
    (present : key ∈ keys entries) :
    put key value entries =
      entries.map fun entry => if entry.1 = key then (key, value) else entry := by
  induction entries with
  | nil => simp at present
  | cons entry rest inductionHypothesis =>
    rcases List.nodup_cons.1 distinct with ⟨fresh, others⟩
    by_cases same : entry.1 = key
    · have unchanged :
          rest.map (fun later => if later.1 = key then (key, value) else later) = rest := by
        refine (List.map_congr_left fun later listed => ?_).trans rest.map_id
        have different : later.1 ≠ key := by
          rintro rfl
          exact fresh (same ▸ mem_keys_of_mem listed)
        simp [different]
      simp [put, same, unchanged]
    · have later : key ∈ keys rest := by
        rcases List.mem_cons.1 present with equal | later
        · exact absurd equal.symm same
        · exact later
      simp [put, same, inductionHypothesis others later]

/-- A key has one place in a list, whichever value is put there. -/
theorem exists_put_eq
    (key : String)
    (entries : List (String × α)) :
    ∃ before after,
      (∀ value, put key value entries = before ++ (key, value) :: after) ∧
        ((keys entries).head? = some key → before = []) := by
  induction entries with
  | nil => exact ⟨[], [], fun _ => rfl, fun _ => rfl⟩
  | cons entry rest inductionHypothesis =>
    by_cases same : entry.1 = key
    · refine ⟨[], rest, ?_, fun _ => rfl⟩
      intro value
      rw [put, if_pos same, List.nil_append]
    · rcases inductionHypothesis with ⟨before, after, placed, _⟩
      refine ⟨entry :: before, after, ?_, ?_⟩
      · intro value
        rw [put, if_neg same, placed, List.cons_append]
      · intro first
        exact absurd (Option.some.inj first) same

theorem foldl_put_of_nodup
    (entries : List (String × α))
    {built : List (String × α)}
    (distinct : (keys (built ++ entries)).Nodup) :
    entries.foldl (fun held entry => put entry.1 entry.2 held) built = built ++ entries := by
  induction entries generalizing built with
  | nil => simp
  | cons entry rest inductionHypothesis =>
    have fresh : entry.1 ∉ keys built := by
      intro present
      rw [keys_append, keys_cons] at distinct
      exact (List.nodup_append.1 distinct).2.2 entry.1 present entry.1 List.mem_cons_self rfl
    have regrouped : built ++ entry :: rest = (built ++ [entry]) ++ rest := by simp
    rw [regrouped] at distinct ⊢
    rw [List.foldl_cons, put_of_not_mem entry.2 fresh]
    exact inductionHypothesis distinct

/-- Entries with distinct keys are inserted in turn without any change. -/
theorem ofList_of_nodup
    {entries : List (String × α)}
    (distinct : (keys entries).Nodup) :
    ofList entries = entries := by
  have inserted :
      entries.foldl (fun held entry => put entry.1 entry.2 held) [] = [] ++ entries :=
    foldl_put_of_nodup entries distinct
  simpa [ofList] using inserted

end Entries

namespace OrderedMap

variable {α : Type u} {β : Type v}

@[simp]
theorem contains_iff
    {map : OrderedMap α}
    {key : String} :
    map.contains key = true ↔ key ∈ map.keys := by
  simp [contains]

theorem get?_eq_none_iff
    {map : OrderedMap α}
    {key : String} :
    map.get? key = none ↔ key ∉ map.keys :=
  Entries.get?_eq_none_iff

theorem contains_eq_isSome
    (map : OrderedMap α)
    (key : String) :
    map.contains key = (map.get? key).isSome :=
  Bool.eq_iff_iff.2 (contains_iff.trans Entries.get?_isSome_iff.symm)

theorem get?_eq_some_iff
    {map : OrderedMap α}
    {key : String}
    {value : α} :
    map.get? key = some value ↔ (key, value) ∈ map.entries :=
  Entries.get?_eq_some_iff map.distinct

/-- A map lists one value under a key. -/
theorem value_unique
    {map : OrderedMap α}
    {key : String}
    {left right : α}
    (leftListed : (key, left) ∈ map.entries)
    (rightListed : (key, right) ∈ map.entries) :
    left = right := by
  have held := get?_eq_some_iff.2 leftListed
  rw [get?_eq_some_iff.2 rightListed] at held
  exact (Option.some.inj held).symm

theorem get?_filter_keys
    (keeps : String → Bool)
    (map : OrderedMap α)
    (asked : String) :
    (map.filter fun key _ => keeps key).get? asked =
      if keeps asked then map.get? asked else none :=
  Entries.get?_filter_keys keeps asked map.entries

/-- A property of the entries of a map is one of what the map holds under its keys. -/
theorem forall_entries_iff
    (map : OrderedMap α)
    (holds : String → α → Prop) :
    (∀ entry ∈ map.entries, holds entry.1 entry.2) ↔
      ∀ key, ∀ value ∈ map.get? key, holds key value := by
  constructor
  · intro each key value held
    exact each (key, value) (get?_eq_some_iff.1 held)
  · intro each entry listed
    exact each entry.1 entry.2 (get?_eq_some_iff.2 listed)

/-- An erased key is no longer found, and no other key is affected. -/
theorem get?_erase
    (map : OrderedMap α)
    (key asked : String) :
    (map.erase key).get? asked = if key = asked then none else map.get? asked := by
  rw [erase, get?_filter_keys (fun other => other != key)]
  by_cases same : key = asked
  · simp [same]
  · simp [same, Ne.symm same]

/-- Filtering by keys commutes with inserting under a key that is kept, and undoes it otherwise. -/
theorem filter_insert
    (keeps : String → Bool)
    (map : OrderedMap α)
    (key : String)
    (value : α) :
    (map.insert key value).filter (fun other _ => keeps other) =
      if keeps key then
        (map.filter fun other _ => keeps other).insert key value
      else
        map.filter fun other _ => keeps other := by
  apply ext
  refine (Entries.filter_put keeps key value map.entries).trans ?_
  cases keeps key <;> rfl

/-- A map lists under each of its keys what it holds there. -/
theorem entries_eq_map_keys
    (map : OrderedMap α)
    (default : α) :
    map.entries = map.keys.map fun key => (key, (map.get? key).getD default) := by
  have held :
      ∀ entry ∈ map.entries, (entry.1, (map.get? entry.1).getD default) = entry := by
    intro entry listed
    have found : map.get? entry.1 = some entry.2 := get?_eq_some_iff.2 listed
    rw [found, Option.getD_some]
  calc
    map.entries = map.entries.map id := (List.map_id _).symm
    _ = map.entries.map fun entry => (entry.1, (map.get? entry.1).getD default) :=
      List.map_congr_left fun entry listed => (held entry listed).symm
    _ = map.keys.map fun key => (key, (map.get? key).getD default) := by
      simp [keys, Entries.keys]

theorem entries_ofList_of_nodup
    {entries : List (String × α)}
    (distinct : (Entries.keys entries).Nodup) :
    (OrderedMap.ofList entries).entries = entries :=
  Entries.ofList_of_nodup distinct

theorem ofList_entries
    (map : OrderedMap α) :
    ofList map.entries = map :=
  ext (entries_ofList_of_nodup map.distinct)

theorem entries_foldl_insert
    (change : String → α → β)
    (entries : List (String × α))
    (built : OrderedMap β) :
    (entries.foldl (fun held entry => held.insert entry.1 (change entry.1 entry.2))
        built).entries =
      (entries.map fun entry => (entry.1, change entry.1 entry.2)).foldl
        (fun held entry => Entries.put entry.1 entry.2 held) built.entries := by
  induction entries generalizing built with
  | nil => rfl
  | cons entry rest inductionHypothesis =>
    exact inductionHypothesis (built.insert entry.1 (change entry.1 entry.2))

/-- Inserting the changed entries of a map in turn changes every value of the map. -/
theorem foldl_insert_eq_mapValues
    (change : String → α → β)
    (map : OrderedMap α) :
    map.entries.foldl (fun held entry => held.insert entry.1 (change entry.1 entry.2)) empty =
      map.mapValues change := by
  apply ext
  rw [entries_foldl_insert]
  exact Entries.foldl_put_of_nodup _ (map.mapValues change).distinct

end OrderedMap

end Assortment
