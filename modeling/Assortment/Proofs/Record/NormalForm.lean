import Assortment.Proofs.Record.Representable

/-!
# Records in their normal form

An open record can be given in many ways: as an object whose members stand in any order, with
members that nobody asked for and without those that have a default, or as a list of its first
members.  What is written for it is one of them, an object with the declared members in their order.

So reading a record and writing it again brings all its forms to one, which stays as it is when this
is done once more.  What has to be shown of a kind of record is that it is read back from what is
written, that reading looks at the declared members only, that the defaults are what stands in for
members that are missing, and which records are written with integers that data may hold.
-/

namespace Assortment

namespace Record

variable {α : Type}

/-- Names that are paired with the first values of a list have them, and the others nothing. -/
theorem map_get?_zip
    {names : List String}
    (distinct : names.Nodup)
    {items : List Value}
    (bounded : items.length ≤ names.length) :
    names.map (fun name => Entries.get? name (names.zip items)) =
      items.map some ++ List.replicate (names.length - items.length) none := by
  induction names generalizing items with
  | nil =>
    have empty : items = [] := List.length_eq_zero_iff.1 (Nat.le_zero.1 bounded)
    simp [empty]
  | cons name rest inductionHypothesis =>
    rcases List.nodup_cons.1 distinct with ⟨fresh, others⟩
    cases items with
    | nil => simp [Entries.get?, List.replicate_succ]
    | cons item later =>
      -- The names are distinct, so the look-up of a later one passes over the first pair.
      have behind :
          rest.map (fun other => Entries.get? other ((name, item) :: rest.zip later)) =
            rest.map fun other => Entries.get? other (rest.zip later) := by
        apply List.map_congr_left
        intro other listed
        have different : name ≠ other := by
          rintro rfl
          exact fresh listed
        exact if_neg different
      rw [List.zip_cons_cons, List.map_cons, behind,
        inductionHypothesis others (Nat.le_of_succ_le_succ bounded)]
      simp [Entries.get?]

/-- A record in the form of a list gives the same members as the object that names them. -/
theorem members?_opened_array
    {names : List String}
    (distinct : names.Nodup)
    {items : List Value}
    (bounded : items.length ≤ names.length) :
    members? .opened names (.array items) =
      members? .opened names (.object (names.zip items)) := by
  have paired : (Entries.keys (names.zip items)).Nodup :=
    distinct.sublist (Entries.keys_zip_sublist names items)
  rw [members?_opened_of_object (Value.object?_of_nodup paired)]
  exact (if_pos bounded).trans (congrArg some (map_get?_zip distinct bounded).symm)

/-- How a kind of record is given as a value. -/
structure Form (α : Type) where
  read : Value → Option α
  write : α → Value
  /-- The members of the record in the order of their declaration. -/
  declared : List String
  /-- What stands in for members that may be missing. -/
  defaults : List (String × Value) := []
  /-- The members that are written, in order. -/
  written : α → List String := fun _ => declared
  /-- Whether the integers of the record are ones that data may hold. -/
  fits : α → Prop := fun _ => True

namespace Form

/-- What a value becomes when it is read and what was read is written again. -/
def rewrite (form : Form α) (value : Value) : Option Value :=
  (form.read value).map form.write

/-- What is written is a normal form of all values that are read. -/
structure Normalizes (form : Form α) : Prop where
  inverse :
    ∀ part, form.read (form.write part) = some part
  settled :
    ∀ value normal, form.rewrite value = some normal →
      form.rewrite normal = some normal ∧ form.read normal = form.read value
  keys :
    ∀ part, ∃ members, form.write part = .object members ∧ Entries.keys members = form.written part
  listed :
    ∀ items, items.length ≤ form.declared.length →
      form.read (.array items) = form.read (.object (form.declared.zip items))
  unknown :
    ∀ members : Row,
      form.read (.object (members.filter fun key _ => form.declared.contains key).entries) =
        form.read (.object members.entries)
  missing :
    ∀ members : Row, ∀ default ∈ form.defaults, default.1 ∉ members.keys →
      form.read (.object (members.insert default.1 default.2).entries) =
        form.read (.object members.entries)
  representable_iff :
    ∀ part, (form.write part).Representable ↔ form.fits part
  fits :
    ReadsWithin form.read form.fits

variable {form : Form α}

/-- Reading that looks at the declared members of an open record only. -/
def ReadsMembers (form : Form α) : Prop :=
  ∀ left right, members? .opened form.declared left = members? .opened form.declared right →
    form.read left = form.read right

/-- Reading a record does not look at members that are not declared. -/
theorem ReadsMembers.read_filter
    (reads : form.ReadsMembers)
    (members : Row) :
    form.read (.object (members.filter fun key _ => form.declared.contains key).entries) =
      form.read (.object members.entries) := by
  apply reads
  rw [members?_opened_of_object (Value.object?_entries _),
    members?_opened_of_object (Value.object?_entries _)]
  congr 1
  apply List.map_congr_left
  intro name named
  rw [OrderedMap.get?_filter_keys, if_pos (List.contains_iff_mem.2 named)]

/-- Records that are read from their declared members have a normal form as soon as they are read
back from what is written. -/
theorem ReadsMembers.normalizes
    (reads : form.ReadsMembers)
    (distinct : form.declared.Nodup)
    (inverse : ∀ part, form.read (form.write part) = some part)
    (keys :
      ∀ part, ∃ members,
        form.write part = .object members ∧ Entries.keys members = form.written part)
    (missing :
      ∀ members : Row, ∀ default ∈ form.defaults, default.1 ∉ members.keys →
        form.read (.object (members.insert default.1 default.2).entries) =
          form.read (.object members.entries))
    (representable_iff : ∀ part, (form.write part).Representable ↔ form.fits part)
    (fits : ReadsWithin form.read form.fits) :
    form.Normalizes where
  inverse := inverse
  settled := by
    intro value normal becomes
    rcases Option.map_eq_some_iff.1 becomes with ⟨part, readable, rfl⟩
    rw [rewrite, inverse, readable]
    exact ⟨rfl, rfl⟩
  keys := keys
  listed := by
    intro items bounded
    exact reads _ _ (members?_opened_array distinct bounded)
  unknown := reads.read_filter
  missing := missing
  representable_iff := representable_iff
  fits := fits

end Form

end Record

end Assortment
