import Assortment.Proofs.Template.Dependence

/-!
# Exchanging templates

Two templates are independent when they produce different fields and neither mentions the field of
the other.  Neither of them can then see whether the other has been applied: the field is known or
unknown, and holds this or that, without any effect on a text in which its placeholder does not
occur.  So two neighbouring templates that are independent may be exchanged.

Only the order of the fields in the row may change by this.  Later templates look fields up by their
names, so all that they write stays the same.
-/

namespace Assortment.Template

open Placeholder (Occurs)

variable {first second : String × String}

/-- Templates of different fields, neither of which mentions the field of the other. -/
structure Independent (first second : String × String) : Prop where
  fields_ne : first.1 ≠ second.1
  not_in_first : ¬ Occurs second.1 first.2.toList
  not_in_second : ¬ Occurs first.1 second.2.toList

theorem Independent.symm
    (independent : Independent first second) :
    Independent second first where
  fields_ne := independent.fields_ne.symm
  not_in_first := independent.not_in_second
  not_in_second := independent.not_in_first

/-- A field that a template does not mention can be written without any effect on its expansion. -/
theorem expand_insert
    {field template : String}
    (absent : ¬ Occurs field template.toList)
    (row : Row)
    (value : Value)
    (groups : List String) :
    expand template (row.insert field value) groups = expand template row groups := by
  apply expand_congr
  intro name occurs
  have different : field ≠ name := by
    rintro rfl
    exact absent occurs
  rw [OrderedMap.get?_insert, if_neg different]

/-- Of two independent templates each writes the text that it writes by itself. -/
theorem Independent.get?_applyAll_pair
    (independent : Independent first second)
    (groups : List String)
    (row : Row)
    (asked : String) :
    (applyAll [first, second] groups row).get? asked =
      if second.1 = asked then some (.string (expand second.2 row groups))
      else if first.1 = asked then some (.string (expand first.2 row groups))
      else row.get? asked := by
  rw [applyAll, List.foldl_cons, List.foldl_cons, List.foldl_nil,
    expand_insert independent.not_in_second, OrderedMap.get?_insert, OrderedMap.get?_insert]

/-- Two independent templates give the same content in either order. -/
theorem Independent.content_applyAll_pair
    (independent : Independent first second)
    (groups : List String)
    (row : Row) :
    (applyAll [first, second] groups row).content =
      (applyAll [second, first] groups row).content := by
  apply OrderedMap.content_eq_iff.2
  intro asked
  rw [independent.get?_applyAll_pair, independent.symm.get?_applyAll_pair]
  by_cases isSecond : second.1 = asked
  · have notFirst : first.1 ≠ asked := isSecond ▸ independent.fields_ne
    rw [if_pos isSecond, if_neg notFirst, if_pos isSecond]
  · rw [if_neg isSecond, if_neg isSecond]

/-- Independent templates that stand next to each other may be exchanged: the row holds the same
under every field in the end, whatever templates follow. -/
theorem content_applyAll_exchange
    (independent : Independent first second)
    (before after : List (String × String))
    (groups : List String)
    (row : Row) :
    (applyAll (before ++ first :: second :: after) groups row).content =
      (applyAll (before ++ second :: first :: after) groups row).content := by
  have pairs :
      (applyAll [first, second] groups (applyAll before groups row)).content =
        (applyAll [second, first] groups (applyAll before groups row)).content :=
    independent.content_applyAll_pair groups (applyAll before groups row)
  rw [applyAll_append, applyAll_append]
  exact content_applyAll_congr pairs groups

/-- A template that writes a placeholder. -/
def bracedTemplate : String × String :=
  ("a", "\x7bab\x7d")

/-- A template whose field has a placeholder that begins with the one of the other field. -/
def spanningTemplate : String × String :=
  ("a\x7d\x7bb", "<\x7bcode\x7d>")

/-- A template that mentions both fields, one right behind the other. -/
def noteTemplate : String × String :=
  ("note", "\x7ba\x7d\x7ba\x7d\x7bb\x7d")

/-- A row with one field. -/
def codeRow : Row where
  entries := [("code", .int 7)]

/-- Two templates whose texts have braces in odd places; a third sees no difference between orders.
-/
theorem braced_spanning_exchange :
    Independent bracedTemplate spanningTemplate ∧
      (applyAll ([] ++ bracedTemplate :: spanningTemplate :: [noteTemplate]) [] codeRow).get?
          "note" = some (.string "\x7bab\x7d<7>") ∧
      applyAll ([] ++ bracedTemplate :: spanningTemplate :: [noteTemplate]) [] codeRow ≠
        applyAll ([] ++ spanningTemplate :: bracedTemplate :: [noteTemplate]) [] codeRow ∧
      (applyAll ([] ++ bracedTemplate :: spanningTemplate :: [noteTemplate]) [] codeRow).content =
        (applyAll ([] ++ spanningTemplate :: bracedTemplate :: [noteTemplate]) []
          codeRow).content := by
  have independent : Independent bracedTemplate spanningTemplate :=
    ⟨by decide, by decide, by decide⟩
  exact ⟨independent, by decide +kernel, by decide +kernel,
    content_applyAll_exchange independent [] [noteTemplate] [] codeRow⟩

end Assortment.Template
