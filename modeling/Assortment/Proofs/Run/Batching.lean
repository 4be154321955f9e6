import Assortment.Proofs.Run.Outcome

/-!
# Candidates in batches

A run on a list of candidates produces the rows of the runs on the two parts of the list, when empty
fields are kept and there is no limit.  Which candidates are valid is found out for each candidate
by itself, the other fields are the same in all three runs, and a tuple takes its item from the one
part or from the other.  The rows of the two parts follow each other where the field is the first
one, and are mixed otherwise.

A run that fails counts as a run without rows.  It fails for a missing field in all three runs or in
none.  For a field without a valid candidate it fails in all three runs as well, unless the field is
the one with the list; and then the part for which it fails has no row to contribute anyway.
-/

namespace Assortment

/-- The rows that a run produced; a run that failed has none. -/
def Outcome.rows : Except Failure Generated → List Row
  | .ok generated => generated.variations
  | .error _ => []

/-- The input with a list of candidates for a field. -/
def Row.listing (data : Row) (field : String) (candidates : List Value) : Row :=
  data.insert field (.array candidates)

namespace Method

variable
    {method : Method}
    {options : Options}
    {name : String}
    {data : Row}
    {groups : List String}

section Keeping

variable (keeping : options.dropEmptyOptional = false)

include keeping

/-- When empty fields are kept, every field of the merged input enters the product. -/
theorem entries_productFields_of_keeping :
    (method.productFields options data).entries =
      (method.merged data).entries.map fun entry =>
        (entry.1, method.validCandidates entry.1 entry.2) := by
  have all :
      ∀ entry ∈ (method.merged data).entries,
        (!(options.dropEmptyOptional && (method.validCandidates entry.1 entry.2).isEmpty)) =
          true := by
    intro entry _
    rw [keeping, Bool.false_and, Bool.not_false]
  rw [entries_productFields, List.filter_eq_self.2 all]

/-- A run that keeps empty fields combines every merged field, in the merged order. -/
theorem keys_productFields_of_keeping :
    (method.productFields options data).keys = (method.merged data).keys := by
  rw [OrderedMap.keys, entries_productFields_of_keeping keeping]
  simp [OrderedMap.keys, Entries.keys, Function.comp_def]

theorem values_productFields_of_keeping :
    (method.productFields options data).values =
      (method.merged data).entries.map fun entry =>
        method.validCandidates entry.1 entry.2 := by
  rw [OrderedMap.values, entries_productFields_of_keeping keeping, List.map_map]
  rfl

/-- An input with a field produces one row for each tuple of valid candidates. -/
theorem expectedVariations_of_keeping
    (nonempty : (method.merged data).entries ≠ []) :
    method.expectedVariations options data groups =
      (tuples ((method.merged data).entries.map fun entry =>
          method.validCandidates entry.1 entry.2)).map fun tuple =>
        Template.applyAll method.templates.entries groups
          ((method.merged data).withValues tuple) := by
  have stocked :
      ¬ Choices.isEmpty ⟨method.productFields options data⟩ = true := by
    intro empty
    have without := List.isEmpty_iff.1 empty
    rw [entries_productFields_of_keeping keeping, List.map_eq_nil_iff] at without
    exact nonempty without
  rw [← map_combinations_productFields, Choices.combinations_eq, if_neg stocked, List.map_map,
    values_productFields_of_keeping keeping]
  apply List.map_congr_left
  intro tuple _
  have sameRow :
      (method.productFields options data).withValues tuple =
        (method.merged data).withValues tuple :=
    OrderedMap.withValues_congr (keys_productFields_of_keeping keeping) tuple
  exact congrArg (Template.applyAll method.templates.entries groups) sameRow

/-- An entry without a valid candidate leaves no row to expect. -/
theorem expectedVariations_of_empty
    {entry : String × Value}
    (listed : entry ∈ (method.merged data).entries)
    (invalid : method.validCandidates entry.1 entry.2 = []) :
    method.expectedVariations options data groups = [] := by
  have empty :
      [] ∈ (method.merged data).entries.map fun entry =>
        method.validCandidates entry.1 entry.2 :=
    List.mem_map.2 ⟨entry, listed, invalid⟩
  rw [expectedVariations_of_keeping keeping (List.ne_nil_of_mem listed),
    tuples_eq_nil_of_mem empty, List.map_nil]

/-- The rows of a run without a limit on an input that misses no required field. -/
theorem Concludes.rows_of_complete
    {outcome : Except Failure Generated}
    (concluded : method.Concludes options name data groups outcome)
    (unlimited : options.limit = none)
    (complete : ∀ field, ¬ method.Missing data field) :
    Outcome.rows outcome = method.expectedVariations options data groups := by
  cases concluded with
  | missing first => exact absurd first.1 (complete _)
  | lacking _ first =>
    exact (expectedVariations_of_empty keeping first.mem_entries first.lacking.2).symm
  | excessive _ _ limited _ =>
    rw [unlimited] at limited
    cases limited
  | produced _ _ _ => rfl

end Keeping

theorem Concludes.rows_of_missing
    {outcome : Except Failure Generated}
    (concluded : method.Concludes options name data groups outcome)
    {field : String}
    (missing : method.Missing data field) :
    Outcome.rows outcome = [] := by
  cases concluded with
  | missing _ => rfl
  | lacking _ _ => rfl
  | excessive _ _ _ _ => rfl
  | produced complete _ _ => exact absurd missing (complete field)

/-- The list stands at one place of the merged input, whichever candidates it has. -/
theorem exists_entries_merged_listing
    (method : Method)
    (data : Row)
    (field : String) :
    ∃ before after,
      (∀ candidates,
        (method.merged (data.listing field candidates)).entries =
          before ++ (field, .array candidates) :: after) ∧
        (data.keys.head? = some field → before = []) := by
  rcases Entries.exists_put_eq field data.entries with ⟨before, after, placed, first⟩
  refine ⟨before.map (fill method.defaults.entries),
    after.map (fill method.defaults.entries) ++
      absent method.defaults.entries (data.listing field []).keys, ?_, ?_⟩
  · intro candidates
    have sameKeys : (data.listing field candidates).keys = (data.listing field []).keys := by
      rw [Row.listing, Row.listing, OrderedMap.keys_insert, OrderedMap.keys_insert]
    have given : fill method.defaults.entries (field, .array candidates) =
        (field, .array candidates) := fill_of_not_null rfl
    have entries : (data.listing field candidates).entries =
        before ++ (field, .array candidates) :: after := placed (.array candidates)
    rw [entries_merged, entries, sameKeys, List.map_append, List.map_cons, given, List.append_assoc,
      List.cons_append]
  · intro isFirst
    rw [first isFirst, List.map_nil]

theorem missing_listing_congr
    {field other : String}
    {earlier : List Value}
    (later : List Value)
    (missing : method.Missing (data.listing field earlier) other) :
    method.Missing (data.listing field later) other := by
  rcases method.exists_entries_merged_listing data field with ⟨before, after, listed, _⟩
  refine ⟨missing.1, ?_⟩
  have absent := missing.2
  rw [OrderedMap.keys, listed] at absent ⊢
  simpa using absent

/-- The rows to expect are written from tuples of which one item is a valid candidate of the
list. -/
theorem exists_expectedVariations_listing
    (keeping : options.dropEmptyOptional = false)
    (method : Method)
    (data : Row)
    (groups : List String)
    (field : String) :
    ∃ before after, ∃ write : List Value → Row,
      (∀ candidates,
        method.expectedVariations options (data.listing field candidates) groups =
          (tuples (before ++ method.validCandidates field (.array candidates) :: after)).map
            write) ∧
        (data.keys.head? = some field → before = []) := by
  rcases method.exists_entries_merged_listing data field with ⟨before, after, listed, first⟩
  refine ⟨before.map fun entry => method.validCandidates entry.1 entry.2,
    after.map fun entry => method.validCandidates entry.1 entry.2,
    fun tuple => Template.applyAll method.templates.entries groups
      ((method.merged (data.listing field [])).withValues tuple), ?_, ?_⟩
  · intro candidates
    have nonempty : (method.merged (data.listing field candidates)).entries ≠ [] := by
      simp [listed]
    have sameKeys :
        (method.merged (data.listing field candidates)).keys =
          (method.merged (data.listing field [])).keys := by
      simp [OrderedMap.keys, listed]
    rw [expectedVariations_of_keeping keeping nonempty, listed, List.map_append, List.map_cons]
    apply List.map_congr_left
    intro tuple _
    rw [OrderedMap.withValues_congr sameKeys]
  · intro isFirst
    rw [first isFirst, List.map_nil]

theorem validCandidates_append
    (method : Method)
    (field : String)
    (earlier later : List Value) :
    method.validCandidates field (.array (earlier ++ later)) =
      method.validCandidates field (.array earlier) ++
        method.validCandidates field (.array later) :=
  List.filter_append earlier later

/-- Either no run on a list for the field has rows, or all have those that are written from the
tuples with an item of the list. -/
theorem exists_rows_listing
    (options : Options)
    (keeping : options.dropEmptyOptional = false)
    (unlimited : options.limit = none)
    (method : Method)
    (name : String)
    (data : Row)
    (groups : List String)
    (field : String) :
    (∀ candidates,
      Outcome.rows (method.generate options name (data.listing field candidates) groups) = []) ∨
    ∃ before after, ∃ write : List Value → Row,
      (∀ candidates,
        Outcome.rows (method.generate options name (data.listing field candidates) groups) =
          (tuples (before ++ method.validCandidates field (.array candidates) :: after)).map
            write) ∧
        (data.keys.head? = some field → before = []) := by
  by_cases missing : ∃ other, method.Missing (data.listing field []) other
  · rcases missing with ⟨other, missing⟩
    refine .inl ?_
    intro candidates
    exact (method.concludes_generate options name _ groups).rows_of_missing
      (missing_listing_congr candidates missing)
  · rcases exists_expectedVariations_listing keeping method data groups field with
      ⟨before, after, write, expected, first⟩
    refine .inr ⟨before, after, write, ?_, first⟩
    intro candidates
    rw [← expected]
    refine (method.concludes_generate options name _ groups).rows_of_complete keeping unlimited ?_
    intro other absent
    exact missing ⟨other, missing_listing_congr [] absent⟩

end Method

/-- The rows of a run that keeps empty fields and has no limit, with a list for a field. -/
def Catalogue.rowsListing
    (catalogue : Catalogue)
    (name : String)
    (data : Row)
    (groups : List String)
    (field : String)
    (candidates : List Value) :
    List Row :=
  Outcome.rows
    (catalogue.generate { dropEmptyOptional := false, limit := none } name
      (data.listing field candidates) groups)

/--
A run on two lists of candidates put together produces the rows of the runs on each of them up to
order, and in this very order when the field is the first one of the input.
-/
theorem Catalogue.rowsListing_append
    (catalogue : Catalogue)
    (name : String)
    (data : Row)
    (groups : List String)
    (field : String)
    (earlier later : List Value) :
    (catalogue.rowsListing name data groups field (earlier ++ later)).Perm
        (catalogue.rowsListing name data groups field earlier ++
          catalogue.rowsListing name data groups field later) ∧
      (data.keys.head? = some field →
        catalogue.rowsListing name data groups field (earlier ++ later) =
          catalogue.rowsListing name data groups field earlier ++
            catalogue.rowsListing name data groups field later) := by
  simp only [rowsListing, generate]
  cases catalogue.get? name with
  | none => exact ⟨.refl _, fun _ => rfl⟩
  | some method =>
    rcases Method.exists_rows_listing { dropEmptyOptional := false, limit := none } rfl rfl method
      name data groups field with rows | ⟨before, after, write, rows, first⟩
    · simp [rows]
    · simp only [rows, method.validCandidates_append, ← List.map_append]
      constructor
      · exact (perm_tuples_append before after _ _).map write
      · intro isFirst
        rw [first isFirst, List.nil_append, List.nil_append, List.nil_append,
          tuples_append_cons]

/-- In the drill, the candidates of the first field in two batches, of which one fails. -/
theorem drill_rowsListing_append :
    drillInput.keys.head? = some "nf" ∧
      Catalogue.standard.rowsListing "drill" drillInput ["g"] "nf"
          ([.string "up"] ++ [.string "left", .string "right"]) =
        Catalogue.standard.rowsListing "drill" drillInput ["g"] "nf" [.string "up"] ++
          Catalogue.standard.rowsListing "drill" drillInput ["g"] "nf"
            [.string "left", .string "right"] ∧
      (Catalogue.standard.rowsListing "drill" drillInput ["g"] "nf" [.string "up"]).length = 0 ∧
      (Catalogue.standard.rowsListing "drill" drillInput ["g"] "nf"
        [.string "left", .string "right"]).length = 8 := by
  have first : drillInput.keys.head? = some "nf" := by decide +kernel
  exact ⟨first,
    (Catalogue.rowsListing_append Catalogue.standard "drill" drillInput ["g"] "nf" _ _).2 first,
    by decide +kernel, by decide +kernel⟩

end Assortment
