import Assortment.Proofs.Record
import Mathlib.Algebra.Ring.Nat

/-!
# Values whose integers data may hold

Integers are unbounded here, but the data knows only those of a signed or of an unsigned word.  A
value is representable when all integers in it are among these.  What is read from a representable
value is bounded accordingly: a count is an unsigned word, and the parts of lists and objects are
bounded like the values that they were read from.
-/

namespace Assortment

/-- A value all of whose integers are ones that data may hold. -/
inductive Value.Representable : Value → Prop
  | null :
      Representable .null
  | bool (flag : Bool) :
      Representable (.bool flag)
  | int {number : Int} (within : Word.Representable number) :
      Representable (.int number)
  | float (number : Binary64.Finite) :
      Representable (.float number)
  | string (text : String) :
      Representable (.string text)
  | array {items : List Value} (each : ∀ item ∈ items, Representable item) :
      Representable (.array items)
  | object {members : List (String × Value)} (each : ∀ member ∈ members, Representable member.2) :
      Representable (.object members)

/-- A count is an integer of the data exactly when it is an unsigned word. -/
@[simp]
theorem Word.representable_natCast_iff
    {count : Nat} :
    Representable (count : Int) ↔ count < 2 ^ 64 := by
  rw [Representable, unsignedBound]
  omega

namespace Value

@[simp]
theorem representable_bool
    (flag : Bool) :
    (Value.bool flag).Representable :=
  .bool flag

@[simp]
theorem representable_string
    (text : String) :
    (Value.string text).Representable :=
  .string text

/-- An integer is a value of the data exactly if it has 64 bits, signed or not. -/
@[simp]
theorem representable_int_iff
    {number : Int} :
    (Value.int number).Representable ↔ Word.Representable number := by
  constructor
  · intro representable
    cases representable with
    | int within => exact within
  · exact .int

@[simp]
theorem representable_array_iff
    {items : List Value} :
    (Value.array items).Representable ↔ ∀ item ∈ items, item.Representable := by
  constructor
  · intro representable
    cases representable with
    | array each => exact each
  · exact .array

@[simp]
theorem representable_object_iff
    {members : List (String × Value)} :
    (Value.object members).Representable ↔ ∀ member ∈ members, member.2.Representable := by
  constructor
  · intro representable
    cases representable with
    | object each => exact each
  · exact .object

end Value

namespace Entries

variable {α : Type}

theorem mem_of_mem_put
    {key : String}
    {value : α}
    {entry : String × α}
    {entries : List (String × α)}
    (listed : entry ∈ put key value entries) :
    entry = (key, value) ∨ entry ∈ entries := by
  induction entries with
  | nil => exact .inl (List.mem_singleton.1 listed)
  | cons first rest inductionHypothesis =>
    rw [put] at listed
    split at listed
    · rcases List.mem_cons.1 listed with same | later
      · exact .inl same
      · exact .inr (List.mem_cons_of_mem _ later)
    · rcases List.mem_cons.1 listed with rfl | later
      · exact .inr List.mem_cons_self
      · exact (inductionHypothesis later).imp_right (List.mem_cons_of_mem _)

theorem mem_of_mem_foldl_put
    {entry : String × α}
    {entries built : List (String × α)}
    (listed : entry ∈ entries.foldl (fun held new => put new.1 new.2 held) built) :
    entry ∈ entries ∨ entry ∈ built := by
  induction entries generalizing built with
  | nil => exact .inr listed
  | cons first rest inductionHypothesis =>
    rcases inductionHypothesis listed with later | placed
    · exact .inl (List.mem_cons_of_mem _ later)
    · rcases mem_of_mem_put placed with rfl | before
      · exact .inl List.mem_cons_self
      · exact .inr before

end Entries

namespace Value.Representable

/-- The members of a representable object are representable. -/
theorem of_mem_object?
    {value : Value}
    {members : Row}
    (representable : value.Representable)
    (written : value.object? = some members)
    {member : String × Value}
    (listed : member ∈ members.entries) :
    member.2.Representable := by
  cases representable with
  | object each =>
    cases written
    rcases Entries.mem_of_mem_foldl_put listed with given | nothing
    · exact each member given
    · cases nothing
  | _ => cases written

/-- The members that are given for a record are representable where the record is. -/
theorem of_members?
    {policy : Record.Policy}
    {names : List String}
    {value : Value}
    {given : List (Option Value)}
    (representable : value.Representable)
    (found : Record.members? policy names value = some given) :
    ∀ member ∈ given, ∀ inner ∈ member, inner.Representable := by
  rw [Record.members?] at found
  cases written : value.object? with
  | some members =>
    rw [written] at found
    simp only at found
    split at found
    · cases found
    · cases found
      intro member listed inner held
      rcases List.mem_map.1 listed with ⟨name, _, rfl⟩
      exact representable.of_mem_object? written (OrderedMap.get?_eq_some_iff.1 held)
  | none =>
    rw [written] at found
    cases representable with
    | @array items each =>
      simp only [Value.array?] at found
      split at found
      · cases found
        intro member listed inner held
        rcases List.mem_append.1 listed with item | missing
        · rcases List.mem_map.1 item with ⟨_, listedItem, rfl⟩
          cases held
          exact each _ listedItem
        · rw [List.eq_of_mem_replicate missing] at held
          cases held
      · cases found
    | _ => cases found

end Value.Representable

namespace Record

/-- What is read from a representable value is bounded. -/
def ReadsWithin {α : Type} (read : Value → Option α) (fits : α → Prop) : Prop :=
  ∀ value part, value.Representable → read value = some part → fits part

namespace ReadsWithin

variable
    {α : Type}
    {read : Value → Option α}
    {fits : α → Prop}

/-- A value that is kept as it is stays representable. -/
theorem kept :
    ReadsWithin some Value.Representable := by
  intro value part representable read
  cases read
  exact representable

theorem nat? :
    ReadsWithin Value.nat? fun count => count < 2 ^ 64 := by
  intro value count representable read
  cases representable with
  | @int number within =>
    cases number with
    | ofNat found =>
      cases read
      exact Int.ofNat_lt.1 within.2
    | negSucc _ => cases read
  | _ => cases read

theorem required
    (within : ReadsWithin read fits)
    {member : Option Value}
    (representable : ∀ inner ∈ member, inner.Representable)
    {part : α}
    (found : Record.required read member = some part) :
    fits part := by
  rcases Option.bind_eq_some_iff.1 found with ⟨inner, given, readable⟩
  exact within inner part (representable inner given) readable

theorem readAll
    (within : ReadsWithin read fits)
    {items : List Value}
    (representable : ∀ item ∈ items, item.Representable)
    {parts : List α}
    (found : Record.readAll read items = some parts) :
    ∀ part ∈ parts, fits part := by
  have readable := isSome_readAll_iff.1 (Option.isSome_of_mem found)
  have bounded : ∃ outcomes ∈ Record.readAll read items, ∀ outcome ∈ outcomes, fits outcome := by
    apply exists_mem_readAll_iff.2
    intro item listed
    rcases Option.isSome_iff_exists.1 (readable item listed) with ⟨part, read⟩
    exact ⟨part, read, within item part (representable item listed) read⟩
  rcases bounded with ⟨outcomes, same, each⟩
  cases Option.mem_unique same found
  exact each

/-- A list read from a value of the data has items that fit. -/
theorem listOf
    (within : ReadsWithin read fits) :
    ReadsWithin (Record.listOf read) fun parts => ∀ part ∈ parts, fits part := by
  intro value parts representable found
  cases representable with
  | array each => exact within.readAll each found
  | _ => cases found

theorem mapOf
    (within : ReadsWithin read fits) :
    ReadsWithin (Record.mapOf read) fun entries => ∀ entry ∈ entries, fits entry.2 := by
  intro value entries representable found
  rcases isSome_mapOf_iff.1 (Option.isSome_of_mem found) with ⟨members, written, readable⟩
  have bounded : ∃ outcomes ∈ Record.mapOf read value, ∀ outcome ∈ outcomes, fits outcome.2 := by
    apply exists_mem_mapOf_iff.2
    refine ⟨members, written, ?_⟩
    intro member listed
    rcases Option.isSome_iff_exists.1 (readable member listed) with ⟨part, read⟩
    exact ⟨part, read, within member.2 part (representable.of_mem_object? written listed) read⟩
  rcases bounded with ⟨outcomes, same, each⟩
  cases Option.mem_unique same found
  exact each

end ReadsWithin

end Record

end Assortment
