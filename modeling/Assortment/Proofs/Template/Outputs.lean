import Assortment.Proofs.Template.Dependence

/-!
# What templates write

Every template writes a text under its field.  Where the row has the field already, the text takes
the place of what stood there, so the fields of the row stay as they are; otherwise the field comes
to stand behind all others.  So the fields of a row after all templates are known from the fields
before and from the fields of the templates, whatever the row holds and whatever the texts are.
-/

namespace Assortment.Template

variable {templates : List (String × String)}

/-- A template that overwrites a field leaves the fields as they are. -/
theorem keys_applyAll_singleton
    {template : String × String}
    {row : Row}
    (present : template.1 ∈ row.keys)
    (groups : List String) :
    (applyAll [template] groups row).keys = row.keys := by
  rw [applyAll, List.foldl_cons, List.foldl_nil, OrderedMap.keys_insert, if_pos present]

/-- The fields that are new to a row stand behind its own, in the order of the templates. -/
theorem keys_applyAll
    (distinct : (Entries.keys templates).Nodup)
    (groups : List String)
    (row : Row) :
    (applyAll templates groups row).keys =
      row.keys ++ (Entries.keys templates).filter fun field => field ∉ row.keys := by
  induction templates generalizing row with
  | nil => exact (List.append_nil _).symm
  | cons template rest inductionHypothesis =>
    rcases List.nodup_cons.1 distinct with ⟨fresh, others⟩
    rw [applyAll, List.foldl_cons]
    refine (inductionHypothesis others _).trans ?_
    rw [OrderedMap.keys_insert, Entries.keys_cons, List.filter_cons]
    by_cases present : template.1 ∈ row.keys
    · simp [present]
    · -- No later template writes the field again, so it is new to the row only once.
      have later :
          ((Entries.keys rest).filter fun field => field ∉ row.keys ++ [template.1]) =
            (Entries.keys rest).filter fun field => field ∉ row.keys := by
        apply List.filter_congr
        intro field listed
        have different : field ≠ template.1 := by
          rintro rfl
          exact fresh listed
        simp [different]
      simp only [present, if_false, not_false_eq_true, decide_true, if_true, later,
        List.append_assoc, List.singleton_append]

/-- Under the field of a template a row holds a text in the end. -/
theorem exists_text_of_mem
    {field : String}
    (produced : field ∈ Entries.keys templates)
    (groups : List String)
    (row : Row) :
    ∃ text, (applyAll templates groups row).get? field = some (.string text) := by
  induction templates generalizing row with
  | nil => cases produced
  | cons template rest inductionHypothesis =>
    by_cases later : field ∈ Entries.keys rest
    · exact inductionHypothesis later _
    · have same : field = template.1 := (List.mem_cons.1 produced).resolve_right later
      refine ⟨expand template.2 row groups, ?_⟩
      refine (get?_applyAll_of_not_mem later groups _).trans ?_
      rw [OrderedMap.get?_insert, if_pos same.symm]

end Assortment.Template
