import Assortment.Proofs.Template.Dependence

/-!
# The names that a scan finds

A name is plain when it can stand between braces: it has at least one character and none of them is
a brace.  The scan of a template finds every plain name whose placeholder occurs there.  Other names
have placeholders too, and an expansion replaces them, but the scan does not see them.
-/

namespace Assortment.Placeholder

/-- A name that is not empty and has no brace in it. -/
def IsPlain (name : String) : Prop :=
  name ≠ "" ∧ '{' ∉ name.toList ∧ '}' ∉ name.toList

instance (name : String) : Decidable (IsPlain name) :=
  inferInstanceAs (Decidable (_ ∧ _ ∧ _))

section Scan

variable {name : String} {character : Char} {rest : List Char}

theorem scan_opening
    (pending : Option (List Char)) :
    scan pending ('{' :: rest) = scan (some []) rest := by
  rcases pending with _ | _ | _ <;> simp [scan]

theorem scan_of_not_brace
    (notOpening : character ≠ '{')
    (notClosing : character ≠ '}')
    (pending : Option (List Char)) :
    scan pending (character :: rest) = scan (pending.map (character :: ·)) rest := by
  rcases pending with _ | _ | _ <;> simp [scan, notOpening, notClosing]

/-- Behind an opening brace, the characters up to the closing brace are found as a name. -/
theorem scan_stretch
    {stretch : List Char}
    (notOpening : '{' ∉ stretch)
    (notClosing : '}' ∉ stretch)
    (pending : List Char)
    (inhabited : stretch.reverse ++ pending ≠ []) :
    scan (some pending) (stretch ++ '}' :: rest) =
      String.ofList (stretch.reverse ++ pending).reverse :: scan none rest := by
  induction stretch generalizing pending with
  | nil =>
    cases pending with
    | nil => exact absurd rfl inhabited
    | cons last before => simp [scan]
  | cons first others inductionHypothesis =>
    rcases not_or.1 (mt List.mem_cons.2 notOpening) with ⟨firstOpening, laterOpening⟩
    rcases not_or.1 (mt List.mem_cons.2 notClosing) with ⟨firstClosing, laterClosing⟩
    have moved : (first :: others).reverse ++ pending = others.reverse ++ first :: pending := by
      simp
    rw [moved] at inhabited ⊢
    rw [List.cons_append, scan_of_not_brace (Ne.symm firstOpening) (Ne.symm firstClosing)]
    exact inductionHypothesis laterOpening laterClosing (first :: pending) inhabited

/-- What is found in the rest of a text is found in the text. -/
theorem mem_scan_cons
    (found : ∀ pending, name ∈ scan pending rest)
    (pending : Option (List Char)) :
    name ∈ scan pending (character :: rest) := by
  by_cases opening : character = '{'
  · rw [opening, scan_opening]
    exact found (some [])
  · by_cases closing : character = '}'
    · rcases pending with _ | _ | _ <;> simp [scan, closing, found none]
    · rw [scan_of_not_brace opening closing]
      exact found _

/-- A plain name that occurs in a text is found, whatever is pending when the scan begins. -/
theorem mem_scan_of_occurs
    {text : List Char}
    (plain : IsPlain name)
    (occurs : Occurs name text)
    (pending : Option (List Char)) :
    name ∈ scan pending text := by
  induction text generalizing pending with
  | nil => cases List.infix_nil.1 occurs
  | cons character rest inductionHypothesis =>
    rcases List.infix_cons_iff.1 occurs with opens | later
    · rcases opens with ⟨behind, split⟩
      have shape : character :: rest = '{' :: (name.toList ++ '}' :: behind) := by
        simp [← split]
      have inhabited : name.toList.reverse ++ [] ≠ [] := by simpa using plain.1
      rw [shape, scan_opening, scan_stretch plain.2.1 plain.2.2 [] inhabited]
      simp
    · exact mem_scan_cons (inductionHypothesis later) pending

end Scan

/-- The scan of a template finds every plain name that occurs in it. -/
theorem mem_names_of_occurs
    {name template : String}
    (plain : IsPlain name)
    (occurs : Occurs name template.toList) :
    name ∈ names template :=
  mem_scan_of_occurs plain occurs none

end Assortment.Placeholder
