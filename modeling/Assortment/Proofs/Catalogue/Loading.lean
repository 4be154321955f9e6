import Assortment.Catalogue.Load
import Assortment.Proofs.Catalogue.Resolution
import Assortment.Proofs.Document.Findings

/-!
# How loading ends

Loading a value ends in one of three ways.  The value does not have the shape of a document, and
what comes back is the review of its shape; or it has, but its version or a method name is wrong,
and what comes back is the whole review of the document; or it is loaded into the catalogue that
the document resolves into, with all the warnings of its review.

The other exits of the loading are never taken.  A value of the right shape can be read and has
templates of text only, and such a document can be resolved.  So the codes that would be reported
there appear in no review.
-/

namespace Assortment

/-- Every name under which a value lists a method has a character that is not blank. -/
def Document.HasNamedMethods (value : Value) : Prop :=
  ∀ methods ∈ value.member? "methods", ∀ written ∈ methods.object?,
    ∀ name ∈ written.keys, ∃ character ∈ name.toList, Text.isBlank character = false

theorem Text.allBlank_eq_false_iff
    {text : String} :
    allBlank text = false ↔ ∃ character ∈ text.toList, isBlank character = false := by
  simp [allBlank]

namespace Catalogue

/-- The ways in which loading a value ends. -/
inductive LoadsAs (value : Value) : Except Review (Catalogue × List Issue) → Prop
  | misshapen
      (faulty : Document.violations value ≠ []) :
      LoadsAs value (.error (Document.reviewShape value))
  | refused
      {document : Document}
      (shaped : Document.violations value = [])
      (read : Document.ofValue? value = some document)
      (faulty : document.review.errors ≠ []) :
      LoadsAs value (.error document.review)
  | loaded
      {document : Document}
      {catalogue : Catalogue}
      (shaped : Document.violations value = [])
      (read : Document.ofValue? value = some document)
      (sound : document.review.errors = [])
      (resolved : ofDocument document = .ok catalogue) :
      LoadsAs value (.ok (catalogue, document.review.warnings))

theorem isOk_reviewShape_iff
    {value : Value} :
    (Document.reviewShape value).isOk = true ↔ Document.violations value = [] := by
  rw [Document.reviewShape_eq, Review.isOk, List.isEmpty_iff, List.map_eq_nil_iff]

/-- A value of the right shape can be read and resolved. -/
theorem exists_resolved_of_shaped
    {value : Value}
    (shaped : Document.violations value = []) :
    ∃ document catalogue,
      Document.ofValue? value = some document ∧ ofDocument document = .ok catalogue := by
  rcases Document.violations_eq_nil_iff.1 shaped with ⟨_, _, document, read, texts⟩
  exact ⟨document, _, read, ofDocument_eq_ok_iff.2 ⟨texts, rfl⟩⟩

/-- Loading follows the cases of how a value can load. -/
theorem loadsAs_load
    (value : Value) :
    LoadsAs value (load value) := by
  rw [load]
  by_cases shaped : Document.violations value = []
  · rcases exists_resolved_of_shaped shaped with ⟨document, catalogue, read, resolved⟩
    rw [if_pos (isOk_reviewShape_iff.2 shaped), read]
    by_cases sound : document.review.errors = []
    · have passes : document.review.isOk = true := List.isEmpty_iff.2 sound
      simp only [passes, if_true, resolved]
      exact .loaded shaped read sound resolved
    · have fails : ¬ document.review.isOk = true := mt List.isEmpty_iff.1 sound
      simp only [fails, Bool.false_eq_true, if_false]
      exact .refused shaped read sound
  · rw [if_neg (mt isOk_reviewShape_iff.1 shaped)]
    exact .misshapen shaped

/-- A loaded catalogue has the warnings of its document and the methods that it resolves into. -/
theorem exists_written_of_load
    {value : Value}
    {catalogue : Catalogue}
    {warnings : List Issue}
    {document : Document}
    {name : String}
    {method : Method}
    (loaded : load value = .ok (catalogue, warnings))
    (read : Document.ofValue? value = some document)
    (registered : catalogue.get? name = some method) :
    warnings = document.review.warnings ∧
      ∃ written, (name, written) ∈ document.methods.entries ∧ method = written.resolved := by
  have ended := loadsAs_load value
  rw [loaded] at ended
  cases ended with
  | loaded _ readAgain _ resolved =>
    cases readAgain.symm.trans read
    rw [get?_of_ofDocument resolved] at registered
    rcases Option.map_eq_some_iff.1 registered with ⟨written, held, rfl⟩
    exact ⟨rfl, written, NameTable.get?_eq_some_iff.1 held, rfl⟩

theorem LoadsAs.exists_read
    {value : Value}
    {outcome : Except Review (Catalogue × List Issue)}
    (loads : LoadsAs value outcome)
    {loaded : Catalogue × List Issue}
    (succeeded : outcome = .ok loaded) :
    ∃ document, Document.ofValue? value = some document := by
  cases loads with
  | misshapen _ => cases succeeded
  | refused _ _ _ => cases succeeded
  | loaded _ read _ _ => exact ⟨_, read⟩

/-- What is learned from evaluating the loading of a document without warnings. -/
theorem exists_loaded_of_eq
    {value : Value}
    {name : String}
    {method : Method}
    (loads :
      ((load value).toOption.bind fun loaded =>
        (loaded.1.get? name).map fun held => (loaded.2, held)) = some ([], method)) :
    ∃ catalogue document,
      load value = .ok (catalogue, []) ∧
        Document.ofValue? value = some document ∧
        catalogue.get? name = some method := by
  rcases Option.bind_eq_some_iff.1 loads with ⟨⟨catalogue, warnings⟩, succeeded, held⟩
  rcases Option.map_eq_some_iff.1 held with ⟨_, registered, same⟩
  cases same
  cases loaded : load value with
  | error review =>
    rw [loaded] at succeeded
    cases succeeded
  | ok result =>
    rw [loaded] at succeeded
    cases succeeded
    rcases (loadsAs_load value).exists_read loaded with ⟨document, read⟩
    exact ⟨catalogue, document, rfl, read, registered⟩

/-- The review of a document that is read from a value is decided by the value. -/
theorem errors_review_of_read_eq_nil_iff
    {value : Value}
    {document : Document}
    (isObject : value.object?.isSome = true)
    (read : Document.ofValue? value = some document) :
    document.review.errors = [] ↔
      value.member? "config_version" = some (.string Document.supportedVersion) ∧
        Document.HasNamedMethods value := by
  have names :=
    Document.forall_names_iff isObject read fun name =>
      ∃ character ∈ name.toList, Text.isBlank character = false
  simp only [← Text.allBlank_eq_false_iff] at names
  rw [Document.errors_review_eq_nil_iff, names, Document.version_of_ofValue? isObject read]
  simp only [Document.HasNamedMethods, ← Text.allBlank_eq_false_iff, Option.some.injEq,
    Value.string.injEq]

/-- What decides how the loading of a value ends, and what comes of it. -/
structure LoadDecided
    (value : Value)
    (outcome : Except Review (Catalogue × List Issue)) :
    Prop where
  ok_iff :
    (∃ loaded, outcome = .ok loaded) ↔
      (Document.reviewShape value).errors = [] ∧
        value.member? "config_version" = some (.string "0.1") ∧
        Document.HasNamedMethods value
  loaded :
    ∀ catalogue warnings, outcome = .ok (catalogue, warnings) →
      ∃ document, Document.ofValue? value = some document ∧
        ofDocument document = .ok catalogue ∧ warnings = document.review.warnings
  misshapen :
    ∀ review, outcome = .error review → (Document.reviewShape value).errors ≠ [] →
      review = Document.reviewShape value
  refused :
    ∀ review, outcome = .error review → (Document.reviewShape value).errors = [] →
      ∃ document, Document.ofValue? value = some document ∧ review = document.review
  shape_review :
    (Document.reviewShape value).warnings = [] ∧
      ∀ issue ∈ (Document.reviewShape value).errors, issue.code = "schema_violation"
  resolvable :
    (Document.reviewShape value).errors = [] →
      ∃ document catalogue,
        Document.ofValue? value = some document ∧ ofDocument document = .ok catalogue
  unused_codes :
    ∀ review, outcome = .error review → ∀ issue ∈ review.errors ++ review.warnings,
      issue.code ∉ ["schema_validation_error", "invalid_methods_json", "invalid_method"]

section Outcome

variable
    {value : Value}
    {outcome : Except Review (Catalogue × List Issue)}

theorem errors_reviewShape_eq_nil
    (shaped : Document.violations value = []) :
    (Document.reviewShape value).errors = [] := by
  rw [Document.reviewShape_eq, shaped]
  rfl

theorem errors_reviewShape_ne_nil
    (faulty : Document.violations value ≠ []) :
    (Document.reviewShape value).errors ≠ [] := by
  rw [Document.reviewShape_eq]
  exact mt List.map_eq_nil_iff.1 faulty

/-- A value loads exactly if its shape is in order, its version is supported and no method is
unnamed. -/
theorem LoadsAs.ok_iff
    (loads : LoadsAs value outcome) :
    (∃ loaded, outcome = .ok loaded) ↔
      (Document.reviewShape value).errors = [] ∧
        value.member? "config_version" = some (.string "0.1") ∧
        Document.HasNamedMethods value := by
  cases loads with
  | misshapen faulty => simp [errors_reviewShape_ne_nil faulty]
  | refused shaped read faulty =>
    have isObject := (Document.violations_eq_nil_iff.1 shaped).1
    have unsound := mt (errors_review_of_read_eq_nil_iff isObject read).2 faulty
    constructor
    · rintro ⟨_, impossible⟩
      cases impossible
    · rintro ⟨_, sound⟩
      exact absurd sound unsound
  | loaded shaped read sound resolved =>
    have isObject := (Document.violations_eq_nil_iff.1 shaped).1
    constructor
    · intro _
      exact ⟨errors_reviewShape_eq_nil shaped,
        (errors_review_of_read_eq_nil_iff isObject read).1 sound⟩
    · intro _
      exact ⟨_, rfl⟩

/-- No issue of a value that fails to load has one of the codes that loading never gives. -/
theorem LoadsAs.code_not_mem
    (loads : LoadsAs value outcome)
    {review : Review}
    (failed : outcome = .error review)
    {issue : Issue}
    (listed : issue ∈ review.errors ++ review.warnings) :
    issue.code ∉ ["schema_validation_error", "invalid_methods_json", "invalid_method"] := by
  subst failed
  cases loads with
  | misshapen faulty =>
    rw [Document.reviewShape_eq, List.append_nil] at listed
    rcases List.mem_map.1 listed with ⟨violation, _, rfl⟩
    simp [Violation.issue]
  | refused shaped read faulty =>
    intro unused
    have used := Document.code_mem_of_mem_review listed
    simp only [List.mem_cons, List.not_mem_nil, or_false] at unused
    rcases unused with same | same | same <;> rw [same] at used <;> revert used <;> decide

/-- The case a value falls into decides how loading it ends. -/
theorem LoadsAs.decided
    (loads : LoadsAs value outcome) :
    LoadDecided value outcome where
  ok_iff := loads.ok_iff
  loaded := by
    intro catalogue warnings succeeded
    subst succeeded
    cases loads with
    | loaded shaped read sound resolved => exact ⟨_, read, resolved, rfl⟩
  misshapen := by
    intro review failed faulty
    subst failed
    cases loads with
    | misshapen _ => rfl
    | refused shaped _ _ => exact absurd (errors_reviewShape_eq_nil shaped) faulty
  refused := by
    intro review failed shaped
    subst failed
    cases loads with
    | misshapen faulty => exact absurd shaped (errors_reviewShape_ne_nil faulty)
    | refused _ read _ => exact ⟨_, read, rfl⟩
  shape_review := by
    rw [Document.reviewShape_eq]
    refine ⟨rfl, ?_⟩
    intro issue listed
    rcases List.mem_map.1 listed with ⟨violation, _, rfl⟩
    rfl
  resolvable := by
    intro shaped
    rw [Document.reviewShape_eq] at shaped
    exact exists_resolved_of_shaped (List.map_eq_nil_iff.1 shaped)
  unused_codes := by
    intro review failed issue listed
    exact loads.code_not_mem failed listed

end Outcome

/--
A value is loaded exactly when its shape is right, its version is the supported one and all its
methods have names; it is loaded into the catalogue of its document, with the warnings of the
document, and otherwise the first review with errors comes back as it is.
-/
theorem load_decided
    (value : Value) :
    LoadDecided value (load value) :=
  (loadsAs_load value).decided

end Catalogue

end Assortment
