import Assortment.Catalogue.Basic
import Assortment.Proofs.Document.Shape

/-!
# Resolving documents

A document whose templates are all text is resolved into a catalogue that holds, under the name of
each method, its rules, its defaults and its templates as they are written; any other document is
refused.  The steps of the resolution register one method after the other and add one template
after the other, and the results of this file say what all the steps together amount to.
-/

namespace Assortment

/-- What a method with templates of text is resolved into. -/
def WrittenMethod.resolved (method : WrittenMethod) : Method where
  rules := method.rules.mapValues fun _ rules => rules.ruleList
  defaults := method.defaults
  templates := method.templates.mapValues fun _ template => template.string?.getD ""

namespace Method

/-- Templates are added as long as they are text. -/
theorem addTemplates_eq_ok_iff
    {name : String}
    {method result : Method}
    {templates : List (String × Value)} :
    addTemplates name method templates = .ok result ↔
      (∀ template ∈ templates, template.2.string?.isSome = true) ∧
        result =
          { method with
            templates :=
              templates.foldl (fun held template =>
                held.insert template.1 (template.2.string?.getD "")) method.templates } := by
  induction templates generalizing method with
  | nil =>
    constructor
    · intro resolved
      cases resolved
      exact ⟨by simp, rfl⟩
    · rintro ⟨_, rfl⟩
      rfl
  | cons template rest inductionHypothesis =>
    rcases template with ⟨field, value⟩
    cases value with
    | string text =>
      rw [addTemplates, inductionHypothesis]
      simp [Value.string?, withTemplate]
    | _ => simp [addTemplates, Value.string?]

/-- A written method resolves exactly if its templates are texts, and then in one way. -/
theorem ofWritten_eq_ok_iff
    {name : String}
    {written : WrittenMethod}
    {method : Method} :
    ofWritten name written = .ok method ↔
      written.HasTextTemplates ∧ method = written.resolved := by
  have templates :=
    written.templates.foldl_insert_eq_mapValues fun _ template => template.string?.getD ""
  rw [ofWritten, addTemplates_eq_ok_iff, templates]
  rfl

end Method

namespace Catalogue

/-- Registering methods succeeds exactly if all of them resolve, and inserts them in order. -/
theorem registerAll_eq_ok_iff
    {catalogue result : Catalogue}
    {methods : List (String × WrittenMethod)} :
    registerAll catalogue methods = .ok result ↔
      (∀ entry ∈ methods, entry.2.HasTextTemplates) ∧
        result =
          { catalogue with
            methods :=
              methods.foldl (fun held entry => held.insert entry.1 entry.2.resolved)
                catalogue.methods } := by
  induction methods generalizing catalogue with
  | nil =>
    constructor
    · intro registered
      cases registered
      exact ⟨by simp, rfl⟩
    · rintro ⟨_, rfl⟩
      rfl
  | cons entry rest inductionHypothesis =>
    rcases entry with ⟨name, written⟩
    rw [registerAll]
    cases resolved : Method.ofWritten name written with
    | ok method =>
      rcases Method.ofWritten_eq_ok_iff.1 resolved with ⟨texts, rfl⟩
      rw [inductionHypothesis]
      simp [texts, register]
    | error cause =>
      have refused : ¬ written.HasTextTemplates := by
        intro texts
        rw [Method.ofWritten_eq_ok_iff.2 ⟨texts, rfl⟩] at resolved
        cases resolved
      simp [refused]

/-- A document is resolved exactly when its templates are text, each method for itself. -/
theorem ofDocument_eq_ok_iff
    {document : Document}
    {catalogue : Catalogue} :
    ofDocument document = .ok catalogue ↔
      document.HasTextTemplates ∧
        catalogue = ⟨document.methods.mapValues fun _ method => method.resolved, []⟩ := by
  have methods := document.methods.foldl_insert_eq_mapValues fun _ method => method.resolved
  rw [ofDocument, registerAll_eq_ok_iff, empty, methods]
  rfl

theorem get?_of_ofDocument
    {document : Document}
    {catalogue : Catalogue}
    (resolved : ofDocument document = .ok catalogue)
    (name : String) :
    catalogue.get? name = (document.methods.get? name).map WrittenMethod.resolved := by
  rw [(ofDocument_eq_ok_iff.1 resolved).2, get?, NameTable.get?_mapValues]

end Catalogue

end Assortment
