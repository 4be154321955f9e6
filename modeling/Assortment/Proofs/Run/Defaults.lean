import Assortment.Run.Generate
import Assortment.Proofs.OrderedMap

/-!
# The input with its defaults

A run looks at its input with the defaults of the method filled in.  `Method.merged` says at once
what that is: every field of the input keeps its place, a null gives way to the default of its
field, and the defaults of absent fields follow in the order of their declaration.

The run arrives at the same input by inserting one default after the other.  The proof goes through
the defaults; the fields of the input that come later in the declaration are those that the
remaining defaults may still fill, which is what `Method.fill` says of a list of defaults.
-/

namespace Assortment.Method

variable {defaults : List (String × Value)}

/-- An entry with the default of its field in place of a null. -/
def fill (defaults : List (String × Value)) : String × Value → String × Value
  | (field, .null) => (field, (Entries.get? field defaults).getD .null)
  | entry => entry

theorem fill_eq
    (entry : String × Value) :
    fill defaults entry =
      (entry.1,
        if entry.2.isNull then (Entries.get? entry.1 defaults).getD .null else entry.2) := by
  rcases entry with ⟨field, value⟩
  cases value <;> rfl

@[simp]
theorem fill_fst
    (entry : String × Value) :
    (fill defaults entry).1 = entry.1 := by
  rw [fill_eq]

theorem isNull_iff
    {value : Value} :
    value.isNull = true ↔ value = .null := by
  cases value <;> simp [Value.isNull]

theorem fill_of_not_mem
    {entry : String × Value}
    (undeclared : entry.1 ∉ Entries.keys defaults) :
    fill defaults entry = entry := by
  rw [fill_eq, Entries.get?_eq_none_iff.2 undeclared, Option.getD_none]
  split
  · next null => rw [← isNull_iff.1 null]
  · rfl

theorem fill_cons_of_ne
    {field : String}
    {value : Value}
    {entry : String × Value}
    (other : entry.1 ≠ field) :
    fill ((field, value) :: defaults) entry = fill defaults entry := by
  simp [fill_eq, Entries.get?, Ne.symm other]

theorem fill_of_not_null
    {entry : String × Value}
    (given : entry.2.isNull = false) :
    fill defaults entry = entry := by
  simp [fill_eq, given]

theorem fill_cons_null
    (field : String)
    (value : Value) :
    fill ((field, value) :: defaults) (field, .null) = (field, value) := by
  simp [fill, Entries.get?]

@[simp]
theorem keys_map_fill
    (entries : List (String × Value)) :
    Entries.keys (entries.map (fill defaults)) = Entries.keys entries := by
  simp [Entries.keys, Function.comp_def]

/-- The defaults of the fields that a list of keys lacks. -/
def absent (defaults : List (String × Value)) (fields : List String) : List (String × Value) :=
  defaults.filter fun entry => !fields.contains entry.1

theorem mem_absent_iff
    {fields : List String}
    {entry : String × Value} :
    entry ∈ absent defaults fields ↔ entry ∈ defaults ∧ entry.1 ∉ fields := by
  simp [absent]

theorem absent_append_of_not_mem
    {field : String}
    (undeclared : field ∉ Entries.keys defaults)
    (fields : List String) :
    absent defaults (fields ++ [field]) = absent defaults fields := by
  apply List.filter_congr
  intro entry listed
  have other : entry.1 ≠ field := by
    rintro rfl
    exact undeclared (Entries.mem_keys_of_mem listed)
  simp [other]

/-- The input as a run sees it. -/
def merged (method : Method) (data : Row) : Row where
  entries :=
    data.entries.map (fill method.defaults.entries) ++ absent method.defaults.entries data.keys
  distinct := by
    rw [Entries.keys_append, keys_map_fill]
    refine List.nodup_append.2 ⟨data.distinct, ?_, ?_⟩
    · exact method.defaults.distinct.sublist (List.filter_sublist.map Prod.fst)
    · intro field present other listed
      rcases List.mem_map.1 listed with ⟨entry, left, rfl⟩
      rintro rfl
      exact (mem_absent_iff.1 left).2 present

/-- A merged row is the input with its nulls filled, followed by the defaults of absent fields. -/
theorem entries_merged
    (method : Method)
    (data : Row) :
    (method.merged data).entries =
      data.entries.map (fill method.defaults.entries) ++
        absent method.defaults.entries data.keys := rfl

/-- Insert a default unless its field holds something. -/
def insertDefault (data : Row) (entry : String × Value) : Row :=
  if ((data.get? entry.1).getD .null).isNull then data.insert entry.1 entry.2 else data

theorem entries_insertDefault_of_not_mem
    {data : Row}
    {field : String}
    (value : Value)
    (missing : field ∉ data.keys) :
    (insertDefault data (field, value)).entries = data.entries ++ [(field, value)] := by
  rw [insertDefault, OrderedMap.get?_eq_none_iff.2 missing]
  exact Entries.put_of_not_mem value missing

/-- A default for a field the row mentions is written over a null, so that it fills like the others.
-/
theorem entries_insertDefault_of_mem
    {data : Row}
    {field : String}
    (value : Value)
    (undeclared : field ∉ Entries.keys defaults)
    (present : field ∈ data.keys) :
    (insertDefault data (field, value)).entries.map (fill defaults) =
      data.entries.map (fill ((field, value) :: defaults)) := by
  rcases Option.isSome_iff_exists.1 (Entries.get?_isSome_iff.2 present) with ⟨held, found⟩
  have unique : ∀ entry ∈ data.entries, entry.1 = field → entry.2 = held := by
    rintro ⟨other, value⟩ listed rfl
    exact OrderedMap.value_unique listed (OrderedMap.get?_eq_some_iff.1 found)
  have shown : data.get? field = some held := found
  rw [insertDefault, shown, Option.getD_some]
  cases null : held.isNull with
  | true =>
    have replaced :
        (data.insert field value).entries =
          data.entries.map fun entry => if entry.1 = field then (field, value) else entry :=
      Entries.put_of_mem value data.distinct present
    simp only [if_true, replaced, List.map_map]
    apply List.map_congr_left
    intro entry listed
    by_cases same : entry.1 = field
    · have empty : entry = (field, .null) :=
        Prod.ext same ((unique entry listed same).trans (isNull_iff.1 null))
      have kept : fill defaults (field, value) = (field, value) := fill_of_not_mem undeclared
      rw [empty, fill_cons_null]
      simpa using kept
    · simp [same, fill_cons_of_ne same]
  | false =>
    simp only [Bool.false_eq_true, if_false]
    apply List.map_congr_left
    intro entry listed
    by_cases same : entry.1 = field
    · have given : entry.2.isNull = false := by rw [unique entry listed same, null]
      rw [fill_of_not_null given, fill_of_not_null given]
    · rw [fill_cons_of_ne same]

theorem keys_insertDefault_of_mem
    {data : Row}
    {field : String}
    (value : Value)
    (present : field ∈ data.keys) :
    (insertDefault data (field, value)).keys = data.keys := by
  rw [insertDefault]
  split
  · simp [present]
  · rfl

/-- Inserting distinct defaults in turn fills the nulls and appends what is absent. -/
theorem entries_foldl_insertDefault
    (defaults : List (String × Value))
    (distinct : (Entries.keys defaults).Nodup)
    (data : Row) :
    (defaults.foldl insertDefault data).entries =
      data.entries.map (fill defaults) ++ absent defaults data.keys := by
  induction defaults generalizing data with
  | nil =>
    have unchanged : data.entries.map (fill []) = data.entries.map id :=
      List.map_congr_left fun entry _ => fill_of_not_mem (by simp)
    simp [unchanged, absent]
  | cons default rest inductionHypothesis =>
    rcases default with ⟨field, value⟩
    rcases List.nodup_cons.1 distinct with ⟨undeclared, others⟩
    rw [List.foldl_cons, inductionHypothesis others]
    by_cases present : field ∈ data.keys
    · have covered : absent ((field, value) :: rest) data.keys = absent rest data.keys := by
        simp [absent, present]
      rw [keys_insertDefault_of_mem value present, covered,
        entries_insertDefault_of_mem value undeclared present]
    · have keys : (insertDefault data (field, value)).keys = data.keys ++ [field] := by
        rw [OrderedMap.keys, entries_insertDefault_of_not_mem value present]
        simp [OrderedMap.keys]
      have kept :
          data.entries.map (fill rest) = data.entries.map (fill ((field, value) :: rest)) := by
        apply List.map_congr_left
        intro entry listed
        have other : entry.1 ≠ field := by
          rintro rfl
          exact present (Entries.mem_keys_of_mem listed)
        rw [fill_cons_of_ne other]
      have uncovered :
          absent ((field, value) :: rest) data.keys = (field, value) :: absent rest data.keys := by
        simp [absent, present]
      rw [keys, absent_append_of_not_mem undeclared,
        entries_insertDefault_of_not_mem value present, List.map_append, kept, List.map_singleton,
        fill_of_not_mem undeclared, uncovered, List.append_assoc, List.singleton_append]

/-- A run sees the merged input. -/
theorem withDefaults_eq_merged
    (method : Method)
    (data : Row) :
    method.withDefaults data = method.merged data := by
  apply OrderedMap.ext
  exact entries_foldl_insertDefault method.defaults.entries method.defaults.distinct data

theorem mem_keys_merged_iff
    {method : Method}
    {data : Row}
    {field : String} :
    field ∈ (method.merged data).keys ↔ field ∈ data.keys ∨ field ∈ method.defaults.keys := by
  rw [OrderedMap.keys, entries_merged, Entries.keys_append, keys_map_fill, List.mem_append]
  constructor
  · rintro (given | added)
    · exact .inl given
    · rcases List.mem_map.1 added with ⟨entry, left, rfl⟩
      exact .inr (Entries.mem_keys_of_mem (mem_absent_iff.1 left).1)
  · intro known
    by_cases given : field ∈ Entries.keys data.entries
    · exact .inl given
    · rcases List.mem_map.1 (known.resolve_left given) with ⟨entry, listed, rfl⟩
      exact .inr (Entries.mem_keys_of_mem (mem_absent_iff.2 ⟨listed, given⟩))

theorem isDefaulted_eq
    (method : Method)
    (data : Row)
    (field : String) :
    method.isDefaulted data field =
      ((method.defaults.get? field).isSome && ((data.get? field).getD .null).isNull) := by
  rw [isDefaulted, OrderedMap.contains_eq_isSome]

/-- A field is defaulted exactly if it has a default and no value but null is given for it. -/
theorem isDefaulted_iff
    {method : Method}
    {data : Row}
    {field : String} :
    method.isDefaulted data field = true ↔
      field ∈ method.defaults.keys ∧ ∀ value ∈ data.get? field, value = .null := by
  rw [isDefaulted, Bool.and_eq_true, OrderedMap.contains_iff]
  cases data.get? field <;> simp [isNull_iff]

/-- What a run sees under a field is the default, where that stands in, and else what is given. -/
theorem get?_merged
    (method : Method)
    (data : Row)
    (field : String) :
    (method.merged data).get? field =
      if method.isDefaulted data field then method.defaults.get? field else data.get? field := by
  rw [isDefaulted_eq]
  cases held : data.get? field with
  | some value =>
    have listed : (field, value) ∈ data.entries := OrderedMap.get?_eq_some_iff.1 held
    have filled :
        (field, (fill method.defaults.entries (field, value)).2) ∈
          (method.merged data).entries :=
      List.mem_append_left _ (List.mem_map.2 ⟨(field, value), listed, Prod.ext (fill_fst _) rfl⟩)
    rw [OrderedMap.get?_eq_some_iff.2 filled, fill_eq, Option.getD_some]
    cases null : value.isNull with
    | false => simp
    | true =>
      rw [isNull_iff.1 null]
      change some ((method.defaults.get? field).getD .null) = _
      cases method.defaults.get? field <;> rfl
  | none =>
    have missing : field ∉ data.keys := OrderedMap.get?_eq_none_iff.1 held
    cases declared : method.defaults.get? field with
    | none =>
      have undeclared := OrderedMap.get?_eq_none_iff.1 declared
      have unlisted : field ∉ (method.merged data).keys :=
        mt mem_keys_merged_iff.1 (not_or_intro missing undeclared)
      rw [OrderedMap.get?_eq_none_iff.2 unlisted]
      rfl
    | some default =>
      have added : (field, default) ∈ (method.merged data).entries :=
        List.mem_append_right _
          (mem_absent_iff.2 ⟨OrderedMap.get?_eq_some_iff.1 declared, missing⟩)
      rw [OrderedMap.get?_eq_some_iff.2 added]
      rfl

/-- A field for which the default stands in has the default in the merged input. -/
theorem get?_defaults_of_isDefaulted
    {method : Method}
    {data : Row}
    {field : String}
    {value : Value}
    (injected : method.isDefaulted data field = true)
    (listed : (field, value) ∈ (method.merged data).entries) :
    method.defaults.get? field = some value := by
  have seen := method.get?_merged data field
  rw [if_pos injected, OrderedMap.get?_eq_some_iff.2 listed] at seen
  exact seen.symm

/-- A default that stands in for a field is what the merged input holds there. -/
theorem exists_default_of_isDefaulted
    {method : Method}
    {data : Row}
    {field : String}
    (injected : method.isDefaulted data field = true) :
    ∃ value,
      method.defaults.get? field = some value ∧ (field, value) ∈ (method.merged data).entries := by
  have declared : (method.defaults.get? field).isSome = true :=
    Entries.get?_isSome_iff.2 (isDefaulted_iff.1 injected).1
  rcases Option.isSome_iff_exists.1 declared with ⟨value, standsIn⟩
  refine ⟨value, standsIn, OrderedMap.get?_eq_some_iff.1 ?_⟩
  rw [get?_merged, if_pos injected, standsIn]

/-- Filling twice is filling once: a default that is null stays null. -/
theorem fill_fill
    (entry : String × Value) :
    fill defaults (fill defaults entry) = fill defaults entry := by
  cases null : entry.2.isNull with
  | false => rw [fill_of_not_null null, fill_of_not_null null]
  | true => simp [fill_eq, null]

/-- A default stays as it is, even if it is null. -/
theorem fill_of_mem
    (distinct : (Entries.keys defaults).Nodup)
    {entry : String × Value}
    (listed : entry ∈ defaults) :
    fill defaults entry = entry := by
  rw [fill_eq, (Entries.get?_eq_some_iff distinct).2 listed, Option.getD_some, ite_self]

/-- Once the defaults are filled in, filling them in again changes nothing. -/
theorem merged_merged
    (method : Method)
    (data : Row) :
    method.merged (method.merged data) = method.merged data := by
  have settled :
      ∀ entry ∈ (method.merged data).entries, fill method.defaults.entries entry = entry := by
    intro entry listed
    rcases List.mem_append.1 listed with filled | added
    · rcases List.mem_map.1 filled with ⟨given, _, rfl⟩
      exact fill_fill given
    · exact fill_of_mem method.defaults.distinct (mem_absent_iff.1 added).1
  have covered : absent method.defaults.entries (method.merged data).keys = [] := by
    refine List.filter_eq_nil_iff.2 ?_
    intro entry listed
    simpa using mem_keys_merged_iff.2 (.inr (Entries.mem_keys_of_mem listed))
  apply OrderedMap.ext
  rw [entries_merged, covered, List.append_nil]
  exact (List.map_congr_left settled).trans (List.map_id _)

end Assortment.Method
