import Assortment.NameTable
import Assortment.Proofs.OrderedMap

/-!
# Tables by their names

A table lists its names in strictly increasing order, so its names are distinct and looking one up
finds exactly the entries of the list.  A table that is built from a list with distinct names holds
the entries of that list and no others, whatever their order was.
-/

namespace Assortment

universe u v

namespace Entries

variable {α : Type u}

theorem Ascending.nodup
    {entries : List (String × α)}
    (sorted : Ascending entries) :
    (keys entries).Nodup := by
  rw [keys, List.Nodup, List.pairwise_map]
  refine sorted.imp ?_
  intro earlier later before same
  rw [same] at before
  exact String.lt_irrefl later.1 before

/-- After placing entries of distinct names, a lookup prefers them to what was there before. -/
theorem get?_foldl_place
    {entries : List (String × α)}
    (distinct : (keys entries).Nodup)
    (built : List (String × α))
    (asked : String) :
    get? asked (entries.foldl (fun held entry => place entry.1 entry.2 held) built) =
      (get? asked entries).or (get? asked built) := by
  induction entries generalizing built with
  | nil => rfl
  | cons entry rest inductionHypothesis =>
    rcases List.nodup_cons.1 distinct with ⟨fresh, others⟩
    rw [List.foldl_cons, inductionHypothesis others, get?_place, get?]
    by_cases same : entry.1 = asked
    · have absent : get? asked rest = none := get?_eq_none_iff.2 (same ▸ fresh)
      simp [same, absent]
    · simp [same]

/-- A name behind all the others is placed last. -/
theorem place_of_forall_lt
    {entries : List (String × α)}
    {name : String}
    (value : α)
    (behind : ∀ other ∈ keys entries, other < name) :
    place name value entries = entries ++ [(name, value)] := by
  induction entries with
  | nil => rfl
  | cons entry rest inductionHypothesis =>
    have first : entry.1 < name := behind entry.1 (by simp)
    have different : entry.1 ≠ name := by
      intro same
      exact String.lt_irrefl name (same ▸ first)
    have notBefore : ¬ name < entry.1 := fun before =>
      String.lt_irrefl name (String.lt_trans before first)
    have others := inductionHypothesis fun other listed => behind other (by simp [listed])
    rw [place, if_neg different, if_neg notBefore, others, List.cons_append]

/-- Entries that are in order are inserted in turn without any change. -/
theorem foldl_place_of_ascending
    (entries : List (String × α))
    {built : List (String × α)}
    (sorted : Ascending (built ++ entries)) :
    entries.foldl (fun held entry => place entry.1 entry.2 held) built = built ++ entries := by
  induction entries generalizing built with
  | nil => simp
  | cons entry rest inductionHypothesis =>
    have behind : ∀ other ∈ keys built, other < entry.1 := by
      intro other listed
      rcases List.mem_map.1 listed with ⟨held, member, rfl⟩
      exact (List.pairwise_append.1 sorted).2.2 held member entry List.mem_cons_self
    -- The first entry joins those that are built, so that the next one comes behind it.
    have regrouped : built ++ entry :: rest = (built ++ [entry]) ++ rest := by simp
    rw [regrouped] at sorted ⊢
    rw [List.foldl_cons, place_of_forall_lt entry.2 behind]
    exact inductionHypothesis sorted

theorem get?_map_entries
    {β : Type v}
    (change : String → α → β)
    (name : String)
    (entries : List (String × α)) :
    get? name (entries.map fun entry => (entry.1, change entry.1 entry.2)) =
      (get? name entries).map (change name) := by
  induction entries with
  | nil => rfl
  | cons entry rest inductionHypothesis =>
    by_cases same : entry.1 = name
    · simp [get?, same]
    · simp [get?, same, inductionHypothesis]

end Entries

namespace NameTable

variable {α : Type u}

theorem get?_eq_some_iff
    {table : NameTable α}
    {name : String}
    {value : α} :
    table.get? name = some value ↔ (name, value) ∈ table.entries :=
  Entries.get?_eq_some_iff table.ascending.nodup

/-- A table is determined by what it holds under each name. -/
theorem ext_get?
    {left right : NameTable α}
    (same : ∀ name, left.get? name = right.get? name) :
    left = right := by
  have listed : ∀ entry, entry ∈ left.entries ↔ entry ∈ right.entries := by
    rintro ⟨name, value⟩
    rw [← get?_eq_some_iff, ← get?_eq_some_iff, same]
  have arranged : left.entries.Perm right.entries :=
    (List.perm_ext_iff_of_nodup left.ascending.nodup.of_map right.ascending.nodup.of_map).2 listed
  refine ext (arranged.eq_of_pairwise ?_ left.ascending right.ascending)
  intro earlier later _ _ before after
  exact absurd (String.lt_trans before after) (String.lt_irrefl _)

theorem get?_ofList
    {entries : List (String × α)}
    (distinct : (Entries.keys entries).Nodup)
    (name : String) :
    (ofList entries).get? name = Entries.get? name entries := by
  refine (Entries.get?_foldl_place distinct [] name).trans ?_
  exact Option.or_none

theorem ofList_entries
    (table : NameTable α) :
    ofList table.entries = table :=
  ext (Entries.foldl_place_of_ascending table.entries table.ascending)

theorem mem_entries_ofList_iff
    {entries : List (String × α)}
    (distinct : (Entries.keys entries).Nodup)
    {entry : String × α} :
    entry ∈ (ofList entries).entries ↔ entry ∈ entries := by
  rw [← get?_eq_some_iff, get?_ofList distinct, Entries.get?_eq_some_iff distinct]

theorem get?_mapValues
    {β : Type v}
    (change : String → α → β)
    (table : NameTable α)
    (name : String) :
    (table.mapValues change).get? name = (table.get? name).map (change name) :=
  Entries.get?_map_entries change name table.entries

theorem entries_foldl_insert
    {β : Type v}
    (change : String → α → β)
    (entries : List (String × α))
    (built : NameTable β) :
    (entries.foldl (fun held entry => held.insert entry.1 (change entry.1 entry.2))
        built).entries =
      (entries.map fun entry => (entry.1, change entry.1 entry.2)).foldl
        (fun held entry => Entries.place entry.1 entry.2 held) built.entries := by
  induction entries generalizing built with
  | nil => rfl
  | cons entry rest inductionHypothesis =>
    exact inductionHypothesis (built.insert entry.1 (change entry.1 entry.2))

/-- Inserting the changed entries of a table in turn changes every value of the table. -/
theorem foldl_insert_eq_mapValues
    {β : Type v}
    (change : String → α → β)
    (table : NameTable α) :
    table.entries.foldl (fun held entry => held.insert entry.1 (change entry.1 entry.2)) empty =
      table.mapValues change := by
  apply ext
  rw [entries_foldl_insert]
  exact Entries.foldl_place_of_ascending _ (table.mapValues change).ascending

end NameTable

end Assortment
