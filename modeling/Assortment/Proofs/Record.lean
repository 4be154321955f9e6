import Assortment.Record
import Assortment.Proofs.OrderedMap

/-!
# What reading a record finds

Reading a list or the members of an object succeeds when every part can be read, and gives what
the parts give.  The statements of this file are made for a property of what is read: the whole is
read with every part having the property exactly when each part is read with the property.  The
same is said of a member that has a default and of a record that is written as an object.

At the end stands what is read back from what was written: lists and objects of parts that are
themselves read back, and records of which every member was written.
-/

namespace Assortment

/-- An object whose keys are distinct is read as the map of its members. -/
theorem Value.object?_of_nodup
    {members : List (String × Value)}
    (distinct : (Entries.keys members).Nodup) :
    (Value.object members).object? = some ⟨members, distinct⟩ :=
  congrArg some (OrderedMap.ext (OrderedMap.entries_ofList_of_nodup distinct))

/-- The members of a map, written as an object, are read as the map. -/
theorem Value.object?_entries
    (members : Row) :
    (Value.object members.entries).object? = some members :=
  congrArg some members.ofList_entries

namespace Record

variable
    {α : Type}
    {read : Value → Option α}
    {holds : α → Prop}

/-- All items can be read, with outcomes that hold, exactly if each of them can. -/
theorem exists_mem_readAll_iff
    {items : List Value} :
    (∃ outcomes ∈ readAll read items, ∀ outcome ∈ outcomes, holds outcome) ↔
      ∀ item ∈ items, ∃ outcome ∈ read item, holds outcome := by
  induction items with
  | nil => simp [readAll]
  | cons item rest inductionHypothesis =>
    rw [List.forall_mem_cons, ← inductionHypothesis, readAll]
    cases read item with
    | none => simp
    | some first =>
      cases readAll read rest with
      | none => simp
      | some others => simp

theorem isSome_readAll_iff
    {items : List Value} :
    (readAll read items).isSome = true ↔ ∀ item ∈ items, (read item).isSome = true := by
  have each := @exists_mem_readAll_iff α read (fun _ => True) items
  simpa [Option.isSome_iff_exists] using each

theorem exists_mem_readMembers_iff
    {members : List (String × Value)} :
    (∃ entries ∈ readMembers read members, ∀ entry ∈ entries, holds entry.2) ↔
      ∀ member ∈ members, ∃ outcome ∈ read member.2, holds outcome := by
  induction members with
  | nil => simp [readMembers]
  | cons member rest inductionHypothesis =>
    rw [List.forall_mem_cons, ← inductionHypothesis, readMembers]
    cases read member.2 with
    | none => simp
    | some first =>
      cases readMembers read rest with
      | none => simp
      | some others => simp [-Prod.forall]

/-- What is read from members stands under their keys. -/
theorem keys_of_readMembers
    {members : List (String × Value)}
    {entries : List (String × α)}
    (found : readMembers read members = some entries) :
    Entries.keys entries = Entries.keys members := by
  induction members generalizing entries with
  | nil =>
    cases found
    rfl
  | cons member rest inductionHypothesis =>
    rw [readMembers] at found
    split at found
    · next first others _ later =>
      cases found
      exact congrArg _ (inductionHypothesis later)
    · cases found

/-- What was read from members was read from one of them. -/
theorem exists_member_of_mem
    {members : List (String × Value)}
    {entries : List (String × α)}
    (found : readMembers read members = some entries)
    {entry : String × α}
    (listed : entry ∈ entries) :
    ∃ value, (entry.1, value) ∈ members ∧ read value = some entry.2 := by
  induction members generalizing entries with
  | nil =>
    cases found
    cases listed
  | cons member rest inductionHypothesis =>
    rw [readMembers] at found
    split at found
    · next first others readable later =>
      cases found
      rcases List.mem_cons.1 listed with rfl | behind
      · exact ⟨member.2, List.mem_cons_self, readable⟩
      · rcases inductionHypothesis later behind with ⟨value, inside, readValue⟩
        exact ⟨value, List.mem_cons_of_mem _ inside, readValue⟩
    · cases found

theorem mapOf_eq_some_iff
    {value : Value}
    {entries : List (String × α)} :
    mapOf read value = some entries ↔
      ∃ members, value.object? = some members ∧
        readMembers read members.entries = some entries :=
  Option.bind_eq_some_iff

/-- What is read from an object is listed under the keys of the object, each of them once. -/
theorem nodup_keys_of_mapOf
    {value : Value}
    {entries : List (String × α)}
    (found : mapOf read value = some entries) :
    (Entries.keys entries).Nodup := by
  rcases mapOf_eq_some_iff.1 found with ⟨members, _, readable⟩
  rw [keys_of_readMembers readable]
  exact members.distinct

theorem exists_mem_mapOf_iff
    {value : Value} :
    (∃ entries ∈ mapOf read value, ∀ entry ∈ entries, holds entry.2) ↔
      ∃ members ∈ value.object?, ∀ member ∈ members.entries,
        ∃ outcome ∈ read member.2, holds outcome := by
  rw [mapOf]
  cases value.object? with
  | none => simp
  | some members => simpa using exists_mem_readMembers_iff

theorem isSome_mapOf_iff
    {value : Value} :
    (mapOf read value).isSome = true ↔
      ∃ members ∈ value.object?, ∀ member ∈ members.entries, (read member.2).isSome = true := by
  have each := @exists_mem_mapOf_iff α read (fun _ => True) value
  simpa [Option.isSome_iff_exists] using each

/-- A member with a default that has the property need only be right where it is given. -/
theorem exists_mem_withDefault_iff
    {default : α}
    (defaultHolds : holds default)
    (member : Option Value) :
    (∃ outcome ∈ withDefault default read member, holds outcome) ↔
      ∀ value ∈ member, ∃ outcome ∈ read value, holds outcome := by
  cases member with
  | none => simpa [withDefault] using defaultHolds
  | some value => simp [withDefault]

theorem isSome_withDefault_iff
    (default : α)
    (member : Option Value) :
    (withDefault default read member).isSome = true ↔
      ∀ value ∈ member, (read value).isSome = true := by
  cases member <;> simp [withDefault]

/-- A closed record that is written as an object has no members but the declared ones. -/
theorem members?_closed_of_object
    {value : Value}
    {members : Row}
    (written : value.object? = some members)
    (names : List String) :
    members? .closed names value =
      if ∀ key ∈ members.keys, key ∈ names then some (names.map members.get?) else none := by
  have all : members.keys.all names.contains = true ↔ ∀ key ∈ members.keys, key ∈ names := by
    simp
  rw [members?, written]
  by_cases declared : ∀ key ∈ members.keys, key ∈ names
  · rw [if_pos declared]
    exact if_neg fun refused => refused.2 (all.2 declared)
  · rw [if_neg declared]
    exact if_pos ⟨rfl, mt all.1 declared⟩

/-- An open record that is written as an object gives its declared members. -/
theorem members?_opened_of_object
    {value : Value}
    {members : Row}
    (written : value.object? = some members)
    (names : List String) :
    members? .opened names value = some (names.map members.get?) := by
  rw [members?, written]
  exact if_neg fun refused => Policy.noConfusion refused.1

section Written

variable
    {write : α → Value}
    (inverse : ∀ part, read (write part) = some part)

include inverse

/-- A list of parts that are written one by one is read back part by part. -/
theorem readAll_map
    (parts : List α) :
    readAll read (parts.map write) = some parts := by
  induction parts with
  | nil => rfl
  | cons part rest inductionHypothesis =>
    rw [List.map_cons, readAll, inverse, inductionHypothesis]

theorem readMembers_map
    (entries : List (String × α)) :
    readMembers read (entries.map fun entry => (entry.1, write entry.2)) = some entries := by
  induction entries with
  | nil => rfl
  | cons entry rest inductionHypothesis =>
    rw [List.map_cons, readMembers, inverse, inductionHypothesis]

/-- An object of parts with distinct keys is read back as the list of its entries. -/
theorem mapOf_object_map
    {entries : List (String × α)}
    (distinct : (Entries.keys entries).Nodup) :
    mapOf read (.object (entries.map fun entry => (entry.1, write entry.2))) = some entries := by
  have keys :
      Entries.keys (entries.map fun entry => (entry.1, write entry.2)) = Entries.keys entries := by
    simp [Entries.keys, Function.comp_def]
  rw [mapOf, Value.object?_of_nodup (by rwa [keys]), Option.bind_some]
  exact readMembers_map inverse entries

end Written

/-- A record that is written as an object of all its members has every member given. -/
theorem members?_of_written
    (policy : Policy)
    {members : List (String × Value)}
    (distinct : (Entries.keys members).Nodup) :
    members? policy (Entries.keys members) (.object members) =
      some (members.map fun member => some member.2) := by
  have declared : (Entries.keys members).all (Entries.keys members).contains = true := by simp
  have given :
      (Entries.keys members).map (OrderedMap.get? ⟨members, distinct⟩) =
        members.map fun member => some member.2 := by
    rw [Entries.keys, List.map_map]
    apply List.map_congr_left
    intro member listed
    exact OrderedMap.get?_eq_some_iff.2 listed
  rw [members?, Value.object?_of_nodup distinct, ← given]
  exact if_neg fun refused => refused.2 declared

end Record

end Assortment
