import Assortment.Proofs.Catalogue.Loading

/-!
# Documents written and read back

A document that is written as a value is read back as the same document, whatever its rules, its
defaults and its templates are.  Both notations of rules keep apart, because a line is written as
text and segments as a list; tables come back because their names stand in order, and maps because
their keys keep their places.

What is written always has the form of objects, so its shape is right exactly when the templates are
text.  If then the version is the supported one and every method has a name, loading what was
written gives the catalogue that the document itself resolves into.
-/

namespace Assortment

theorem WrittenRules.ofValue?_toValue
    (rules : WrittenRules) :
    ofValue? rules.toValue = some rules := by
  cases rules with
  | line text => rfl
  | segments texts =>
    have each : ∀ text, Value.string? (.string text) = some text := fun _ => rfl
    rw [toValue, ofValue?, Record.readAll_map each, Option.map_some]

namespace WrittenMethod

/-- What is written for a method has all its members. -/
theorem members?_toValue
    (method : WrittenMethod) :
    Record.members? .closed declared method.toValue =
      some
        [some (.object (method.rules.mapValues fun _ rules => rules.toValue).entries),
          some (.object method.defaults.entries), some (.object method.templates.entries)] :=
  Record.members?_of_written .closed (by simp)

theorem ofValue?_toValue
    (method : WrittenMethod) :
    ofValue? method.toValue = some method := by
  have rules :
      Record.mapOf WrittenRules.ofValue?
          (.object (method.rules.mapValues fun _ rules => rules.toValue).entries) =
        some method.rules.entries :=
    Record.mapOf_object_map WrittenRules.ofValue?_toValue method.rules.ascending.nodup
  rw [ofValue?, ← declared, members?_toValue]
  simp [Record.withDefault, rules, Value.object?, OrderedMap.ofList_entries,
    NameTable.ofList_entries]

end WrittenMethod

namespace Document

theorem members?_toValue
    (document : Document) :
    Record.members? .closed declared document.toValue =
      some
        [some (.string document.version),
          some (.object (document.methods.mapValues fun _ method => method.toValue).entries)] :=
  Record.members?_of_written .closed (by simp)

theorem ofValue?_toValue
    (document : Document) :
    ofValue? document.toValue = some document := by
  have methods :
      Record.mapOf WrittenMethod.ofValue?
          (.object (document.methods.mapValues fun _ method => method.toValue).entries) =
        some document.methods.entries :=
    Record.mapOf_object_map WrittenMethod.ofValue?_toValue document.methods.ascending.nodup
  rw [ofValue?, ← declared, members?_toValue]
  simp [Record.required, methods, Value.string?, NameTable.ofList_entries]

/-- A document is written as an object that lists its methods as objects. -/
theorem hasObjectMethods_toValue
    (document : Document) :
    HasObjectMethods document.toValue := by
  have methodsOf :
      document.toValue.member? "methods" =
        some (.object (document.methods.mapValues fun _ method => method.toValue).entries) := rfl
  intro methods found written isMap entry listed
  cases Option.mem_unique found methodsOf
  rw [Value.object?_of_nodup (NameTable.ascending _).nodup] at isMap
  cases isMap
  rcases List.mem_map.1 listed with ⟨_, _, rfl⟩
  rfl

/-- A document written out violates nothing exactly if its templates are texts. -/
theorem violations_toValue_eq_nil_iff
    {document : Document} :
    violations document.toValue = [] ↔ document.HasTextTemplates := by
  rw [violations_eq_nil_iff, ofValue?_toValue]
  constructor
  · rintro ⟨_, _, other, found, texts⟩
    cases found
    exact texts
  · intro texts
    exact ⟨rfl, document.hasObjectMethods_toValue, document, rfl, texts⟩

end Document

namespace Catalogue

/-- A document of the supported version with text templates and names is loaded from what is
written for it, into the catalogue that it resolves into. -/
theorem load_toValue
    {document : Document}
    (texts : document.HasTextTemplates)
    (sound : document.review.errors = []) :
    ∃ catalogue,
      ofDocument document = .ok catalogue ∧
        load document.toValue = .ok (catalogue, document.review.warnings) := by
  have ended := loadsAs_load document.toValue
  generalize load document.toValue = outcome at ended ⊢
  cases ended with
  | misshapen faulty => exact absurd (Document.violations_toValue_eq_nil_iff.2 texts) faulty
  | refused _ read faulty =>
    cases read.symm.trans document.ofValue?_toValue
    exact absurd sound faulty
  | loaded _ read _ resolved =>
    cases read.symm.trans document.ofValue?_toValue
    exact ⟨_, resolved, rfl⟩

end Catalogue

namespace Document

/-- What comes of a document that is written as a value. -/
structure RoundTrips (document : Document) : Prop where
  read :
    ofValue? document.toValue = some document
  shape_iff :
    (reviewShape document.toValue).errors = [] ↔ document.HasTextTemplates
  loaded :
    document.HasTextTemplates → document.version = "0.1" →
      (∀ entry ∈ document.methods.entries,
        ∃ character ∈ entry.1.toList, Text.isBlank character = false) →
      ∃ catalogue,
        Catalogue.ofDocument document = .ok catalogue ∧
          Catalogue.load document.toValue = .ok (catalogue, document.review.warnings)

/--
Every document is read back from what is written for it, with its defaults and templates in their
order; and what is written has the right shape, and can be loaded, where the document allows it.
-/
theorem roundTrips_toValue
    (document : Document) :
    RoundTrips document where
  read := document.ofValue?_toValue
  shape_iff := by
    rw [reviewShape_eq, List.map_eq_nil_iff]
    exact violations_toValue_eq_nil_iff
  loaded := by
    intro texts supported named
    apply Catalogue.load_toValue texts
    rw [errors_review_eq_nil_iff]
    refine ⟨supported, ?_⟩
    intro entry listed
    exact Text.allBlank_eq_false_iff.2 (named entry listed)

end Document

end Assortment
