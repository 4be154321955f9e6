import Assortment.Proofs.Catalogue.Resolution
import Assortment.Proofs.Rule.RoundTrip

/-!
# Documents resolved and methods built in code

A method can be built piece by piece: rules, defaults and templates are attached one after the
other, each replacing what stood under its field.  Resolving a written method does not go this way.
It takes the tables of rules and defaults as a whole and only adds the templates one by one.  Both
ways lead to the same method, because the fields of each table are distinct, so nothing is replaced
and every piece keeps its place.

A document that cannot be resolved fails at the first template that is not text, in the order of the
names of the methods and of the declarations in a method.
-/

namespace Assortment

/-- The rules of segments that are parsed one by one, the empty ones skipped. -/
def Rule.parseEach : List String → List Rule
  | [] => []
  | segment :: rest =>
    if segment = "" then parseEach rest else parse segment :: parseEach rest

theorem RuleList.ofSegments_eq_parseEach
    (segments : List String) :
    ofSegments segments = ⟨Rule.parseEach segments⟩ := by
  rw [ofSegments]
  congr 1
  induction segments with
  | nil => rfl
  | cons segment rest inductionHypothesis =>
    rw [Rule.parseEach, ← inductionHypothesis]
    by_cases empty : segment = "" <;> simp [empty]

namespace Method

/-- Attach rules as they are written, a line like a line in code and segments one by one. -/
def declareRules (method : Method) (field : String) : WrittenRules → Method
  | .line text => method.withRules field text
  | .segments texts =>
    { method with rules := method.rules.insert field ⟨Rule.parseEach texts⟩ }

/-- The method that is built from nothing by the declarations of a written one, in their order. -/
def built (written : WrittenMethod) : Method :=
  let ruled :=
    written.rules.entries.foldl (fun method entry => method.declareRules entry.1 entry.2) empty
  let defaulted :=
    written.defaults.entries.foldl (fun method entry => method.withDefault entry.1 entry.2) ruled
  written.templates.entries.foldl
    (fun method entry => method.withTemplate entry.1 (entry.2.string?.getD "")) defaulted

theorem declareRules_eq
    (method : Method)
    (field : String)
    (rules : WrittenRules) :
    method.declareRules field rules =
      { method with rules := method.rules.insert field rules.ruleList } := by
  cases rules with
  | line text => rfl
  | segments texts =>
    rw [declareRules, WrittenRules.ruleList, RuleList.ofSegments_eq_parseEach]

/-- Segments without bars are attached like the line on which they are written. -/
theorem declareRules_segments_of_barless
    (method : Method)
    (field : String)
    {segments : List String}
    (barless : ∀ segment ∈ segments, '|' ∉ segment.toList) :
    method.declareRules field (.segments segments) =
      method.withRules field ("|".intercalate segments) := by
  rw [declareRules_eq, withRules, RuleList.parse_intercalate barless]
  rfl

section Attaching

variable (method : Method)

/-- Attaching rules in turn changes the table of rules only. -/
theorem foldl_declareRules
    (entries : List (String × WrittenRules)) :
    entries.foldl (fun held entry => held.declareRules entry.1 entry.2) method =
      { method with
        rules :=
          entries.foldl (fun table entry => table.insert entry.1 entry.2.ruleList)
            method.rules } :=
  List.foldl_hom (fun rules => { method with rules := rules })
    fun rules entry => declareRules_eq { method with rules := rules } entry.1 entry.2

/-- Attaching defaults in turn changes the defaults only. -/
theorem foldl_withDefault
    (entries : List (String × Value)) :
    entries.foldl (fun held entry => held.withDefault entry.1 entry.2) method =
      { method with
        defaults :=
          entries.foldl (fun map entry => map.insert entry.1 entry.2) method.defaults } :=
  List.foldl_hom (fun defaults => { method with defaults := defaults }) fun _ _ => rfl

/-- Attaching templates in turn changes the templates only. -/
theorem foldl_withTemplate
    (entries : List (String × Value)) :
    entries.foldl (fun held entry => held.withTemplate entry.1 (entry.2.string?.getD "")) method =
      { method with
        templates :=
          entries.foldl (fun map entry => map.insert entry.1 (entry.2.string?.getD ""))
            method.templates } :=
  List.foldl_hom (fun templates => { method with templates := templates }) fun _ _ => rfl

end Attaching

/-- Declarations that are attached one after the other make up the tables that are taken as a
whole. -/
theorem built_eq_resolved
    (written : WrittenMethod) :
    built written = written.resolved := by
  have rules := written.rules.foldl_insert_eq_mapValues fun _ rules => rules.ruleList
  have defaults := written.defaults.foldl_insert_eq_mapValues fun _ value => value
  have templates :=
    written.templates.foldl_insert_eq_mapValues fun _ template => template.string?.getD ""
  have unchanged : (written.defaults.mapValues fun _ value => value) = written.defaults :=
    OrderedMap.ext (List.map_id _)
  simp only [built, foldl_declareRules, foldl_withDefault, foldl_withTemplate, empty, rules,
    defaults, templates, unchanged, WrittenMethod.resolved]

end Method

/-- Templates of text are resolved into the same texts in the same order. -/
theorem WrittenMethod.templates_entries_eq
    {written : WrittenMethod}
    (texts : written.HasTextTemplates) :
    written.templates.entries =
      written.resolved.templates.entries.map fun template =>
        (template.1, .string template.2) := by
  have each :
      ∀ template ∈ written.templates.entries,
        (template.1, .string (template.2.string?.getD "")) = template := by
    rintro ⟨field, value⟩ listed
    rcases Option.isSome_iff_exists.1 (texts (field, value) listed) with ⟨text, isText⟩
    have valueEq : value = .string text := Value.string?_eq_some_iff.1 isText
    rw [valueEq]
    rfl
  rw [resolved, OrderedMap.mapValues, List.map_map]
  exact ((List.map_congr_left each).trans (List.map_id _)).symm

/-- The first template of a method that is not text is the one of the field. -/
def WrittenMethod.FirstNonText (method : WrittenMethod) (field : String) : Prop :=
  ∃ earlier value later,
    method.templates.entries = earlier ++ (field, value) :: later ∧
      (∀ template ∈ earlier, template.2.string?.isSome = true) ∧ value.string? = none

/-- By the order of names, the method is the first one with a template that is not text, and the
field is that of its first such template. -/
def Document.FirstNonText (document : Document) (name field : String) : Prop :=
  ∃ written,
    (name, written) ∈ document.methods.entries ∧
      (∀ entry ∈ document.methods.entries, entry.1 < name → entry.2.HasTextTemplates) ∧
      written.FirstNonText field

namespace Method

/-- Adding templates fails at the first one that is not text. -/
theorem exists_first_of_addTemplates
    {name : String}
    {method : Method}
    {templates : List (String × Value)}
    {cause : LoadError}
    (failed : addTemplates name method templates = .error cause) :
    ∃ earlier field value later,
      templates = earlier ++ (field, value) :: later ∧
        (∀ template ∈ earlier, template.2.string?.isSome = true) ∧
        value.string? = none ∧ cause = .templateNotText name field := by
  induction templates generalizing method with
  | nil => cases failed
  | cons template rest inductionHypothesis =>
    rcases template with ⟨field, value⟩
    by_cases isText : value.string?.isSome = true
    · rcases Option.isSome_iff_exists.1 isText with ⟨text, written⟩
      cases Value.string?_eq_some_iff.1 written
      rcases inductionHypothesis failed with ⟨earlier, other, held, later, rfl, texts, found⟩
      refine ⟨(field, .string text) :: earlier, other, held, later, rfl, ?_, found⟩
      exact List.forall_mem_cons.2 ⟨rfl, texts⟩
    · refine ⟨[], field, value, rest, rfl, by simp, Option.not_isSome_iff_eq_none.1 isText, ?_⟩
      cases value with
      | string text => exact absurd rfl isText
      | _ =>
        cases failed
        rfl

/-- Resolving a method fails only for the first template that is not a text. -/
theorem exists_first_of_ofWritten
    {name : String}
    {written : WrittenMethod}
    {cause : LoadError}
    (failed : ofWritten name written = .error cause) :
    ∃ field, cause = .templateNotText name field ∧ written.FirstNonText field := by
  rcases exists_first_of_addTemplates failed with
    ⟨earlier, field, value, later, listed, texts, notText, rfl⟩
  exact ⟨field, rfl, earlier, value, later, listed, texts, notText⟩

end Method

namespace Catalogue

/-- Registering methods fails at the first one that cannot be resolved. -/
theorem exists_first_of_registerAll
    {catalogue : Catalogue}
    {methods : List (String × WrittenMethod)}
    {cause : LoadError}
    (failed : registerAll catalogue methods = .error cause) :
    ∃ earlier name written later,
      methods = earlier ++ (name, written) :: later ∧
        (∀ entry ∈ earlier, entry.2.HasTextTemplates) ∧
        Method.ofWritten name written = .error cause := by
  induction methods generalizing catalogue with
  | nil => cases failed
  | cons entry rest inductionHypothesis =>
    rcases entry with ⟨name, written⟩
    rw [registerAll] at failed
    cases resolved : Method.ofWritten name written with
    | error other =>
      rw [resolved] at failed
      cases failed
      exact ⟨[], name, written, rest, rfl, by simp, resolved⟩
    | ok method =>
      rw [resolved] at failed
      rcases inductionHypothesis failed with ⟨earlier, other, held, later, rfl, texts, found⟩
      refine ⟨(name, written) :: earlier, other, held, later, rfl, ?_, found⟩
      exact List.forall_mem_cons.2 ⟨(Method.ofWritten_eq_ok_iff.1 resolved).1, texts⟩

/-- Resolving a document fails only for the first template that is not a text, of the first method
that has one. -/
theorem exists_first_of_ofDocument
    {document : Document}
    {cause : LoadError}
    (failed : ofDocument document = .error cause) :
    ∃ name field, cause = .templateNotText name field ∧ document.FirstNonText name field := by
  rcases exists_first_of_registerAll failed with
    ⟨earlier, name, written, later, listed, texts, refused⟩
  rcases Method.exists_first_of_ofWritten refused with ⟨field, rfl, first⟩
  refine ⟨name, field, rfl, written, listed ▸ by simp, ?_, first⟩
  intro entry member before
  have sorted := document.methods.ascending
  rw [listed] at member sorted
  rcases List.mem_append.1 member with inFront | behind
  · exact texts entry inFront
  · -- What is listed from the method on does not come before it by name.
    exfalso
    rcases List.mem_cons.1 behind with rfl | inBack
    · exact String.lt_irrefl _ before
    · have ordered := (List.pairwise_append.1 sorted).2.1
      have after := List.rel_of_pairwise_cons ordered inBack
      exact String.lt_irrefl _ (String.lt_trans before after)

/-- The resolution of a document compared with building its methods in code. -/
structure ResolvesAsBuilt
    (document : Document)
    (outcome : Except LoadError Catalogue) :
    Prop where
  refused_iff :
    (∃ cause, outcome = .error cause) ↔
      ∃ entry ∈ document.methods.entries,
        ∃ template ∈ entry.2.templates.entries, template.2.string? = none
  first_refused :
    ∀ cause, outcome = .error cause →
      ∃ name field, cause = .templateNotText name field ∧ document.FirstNonText name field
  registered :
    ∀ catalogue, outcome = .ok catalogue →
      catalogue.names = document.methods.names ∧ catalogue.warnings = [] ∧
        ∀ name, catalogue.get? name = (document.methods.get? name).map Method.built
  templates :
    ∀ catalogue, outcome = .ok catalogue →
      ∀ name written method,
        document.methods.get? name = some written → catalogue.get? name = some method →
          written.templates.entries =
            method.templates.entries.map fun template => (template.1, .string template.2)
  barless_segments :
    ∀ (method : Method) field segments,
      (∀ segment ∈ segments, '|' ∉ segment.toList) →
        method.declareRules field (.segments segments) =
          method.withRules field ("|".intercalate segments)

theorem hasTextTemplates_iff
    {document : Document} :
    document.HasTextTemplates ↔
      ¬ ∃ entry ∈ document.methods.entries,
        ∃ template ∈ entry.2.templates.entries, template.2.string? = none := by
  simp only [Document.HasTextTemplates, WrittenMethod.HasTextTemplates, Value.TextMembers,
    not_exists, not_and, Option.isSome_iff_ne_none, ne_eq]

/--
A document is refused at its first template that is not text; otherwise its catalogue holds, under
the names of the document and without warnings, the methods that its declarations build.
-/
theorem resolvesAsBuilt_ofDocument
    (document : Document) :
    ResolvesAsBuilt document (ofDocument document) where
  refused_iff := by
    rw [← not_iff_not, ← hasTextTemplates_iff]
    constructor
    · intro accepted
      cases resolved : ofDocument document with
      | error cause => exact absurd ⟨cause, resolved⟩ accepted
      | ok catalogue => exact (ofDocument_eq_ok_iff.1 resolved).1
    · rintro texts ⟨cause, failed⟩
      rw [ofDocument_eq_ok_iff.2 ⟨texts, rfl⟩] at failed
      cases failed
  first_refused := fun _ failed => exists_first_of_ofDocument failed
  registered := by
    intro catalogue resolved
    rcases ofDocument_eq_ok_iff.1 resolved with ⟨_, rfl⟩
    refine ⟨?_, rfl, ?_⟩
    · simp [names, NameTable.names, NameTable.mapValues, Entries.keys, Function.comp_def]
    · intro name
      rw [get?_of_ofDocument resolved, funext Method.built_eq_resolved]
  templates := by
    intro catalogue resolved name written method declared held
    rw [get?_of_ofDocument resolved, declared] at held
    cases held
    have texts := (ofDocument_eq_ok_iff.1 resolved).1 (name, written)
      (NameTable.get?_eq_some_iff.1 declared)
    exact WrittenMethod.templates_entries_eq texts
  barless_segments := fun method field _ => method.declareRules_segments_of_barless field

end Catalogue

end Assortment
