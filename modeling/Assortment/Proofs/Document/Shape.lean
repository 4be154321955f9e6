import Assortment.Document.Codec
import Assortment.Document.Shape
import Assortment.Proofs.NameTable
import Assortment.Proofs.Record

/-!
# The shape of a document and what can be read

There are two ways to find out whether a value is a methods document: its shape can be checked
against the schema, and it can be read.  They differ in two respects.  Reading takes a document and
a method in the form of a list as well as in the form of an object, and it takes templates of any
kind, while the schema asks for objects and for templates that are text.

Apart from that they agree.  The proof goes through the levels of the format from the inside out:
rules, methods, the document.  At each level a value raises no violation exactly when it can be
read and what is read has templates of text only.
-/

namespace Assortment

/-- What a value holds under a key, if it is an object that has the key. -/
def Value.member? (value : Value) (key : String) : Option Value :=
  value.object?.bind fun members => members.get? key

theorem Value.string?_eq_some_iff
    {value : Value}
    {text : String} :
    value.string? = some text ↔ value = .string text := by
  cases value <;> simp [string?]

/-- A map of texts only. -/
def Value.TextMembers (members : Row) : Prop :=
  ∀ member ∈ members.entries, member.2.string?.isSome = true

/-- Every template of the method is text. -/
def WrittenMethod.HasTextTemplates (method : WrittenMethod) : Prop :=
  Value.TextMembers method.templates

/-- Every template of every method is text. -/
def Document.HasTextTemplates (document : Document) : Prop :=
  ∀ entry ∈ document.methods.entries, entry.2.HasTextTemplates

namespace WrittenMethod

variable {value : Value} {members : Row}

/-- The members that a method may have, in the order of their declaration. -/
def declared : List String := ["rules", "defaults", "templates"]

/-- What is asked of the members of a method that is written as an object. -/
structure Shaped (members : Row) : Prop where
  known : ∀ key ∈ members.keys, key ∈ declared
  rules :
    ∀ rules ∈ members.get? "rules", (Record.mapOf WrittenRules.ofValue? rules).isSome = true
  defaults : ∀ defaults ∈ members.get? "defaults", defaults.object?.isSome = true
  templates :
    ∀ templates ∈ members.get? "templates", ∃ texts ∈ templates.object?, Value.TextMembers texts

theorem ofValue?_of_object
    (written : value.object? = some members)
    (known : ∀ key ∈ members.keys, key ∈ declared) :
    ofValue? value =
      (Record.withDefault [] (Record.mapOf WrittenRules.ofValue?) (members.get? "rules")).bind
        fun rules =>
          (Record.withDefault .empty Value.object? (members.get? "defaults")).bind
            fun defaults =>
              (Record.withDefault .empty Value.object? (members.get? "templates")).bind
                fun templates => some ⟨.ofList rules, defaults, templates⟩ := by
  rw [ofValue?, ← declared, Record.members?_closed_of_object written, if_pos known]
  rfl

/-- A method that is written as an object can be read when each of its members can be. -/
theorem exists_mem_ofValue?_iff
    (written : value.object? = some members) :
    (∃ method ∈ ofValue? value, method.HasTextTemplates) ↔ Shaped members := by
  have parts :
      Shaped members ↔
        (∀ key ∈ members.keys, key ∈ declared) ∧
          (Record.withDefault [] (Record.mapOf WrittenRules.ofValue?)
            (members.get? "rules")).isSome = true ∧
          (Record.withDefault .empty Value.object? (members.get? "defaults")).isSome = true ∧
          ∃ texts ∈ Record.withDefault .empty Value.object? (members.get? "templates"),
            Value.TextMembers texts := by
    rw [Record.isSome_withDefault_iff, Record.isSome_withDefault_iff,
      Record.exists_mem_withDefault_iff nofun]
    constructor
    · rintro ⟨known, rules, defaults, templates⟩
      exact ⟨known, rules, defaults, templates⟩
    · rintro ⟨known, rules, defaults, templates⟩
      exact ⟨known, rules, defaults, templates⟩
  rw [parts]
  by_cases known : ∀ key ∈ members.keys, key ∈ declared
  · rw [ofValue?_of_object written known, and_iff_right known]
    cases Record.withDefault [] (Record.mapOf WrittenRules.ofValue?) (members.get? "rules") with
    | none => simp
    | some rules =>
      cases Record.withDefault .empty Value.object? (members.get? "defaults") with
      | none => simp
      | some defaults =>
        cases Record.withDefault .empty Value.object? (members.get? "templates") with
        | none => simp
        | some templates => simp [HasTextTemplates]
  · rw [ofValue?, ← declared, Record.members?_closed_of_object written, if_neg known]
    simp [known]

end WrittenMethod

namespace Document

variable {place : List String} {value : Value}

theorem stringViolations_eq_nil_iff :
    stringViolations place value = [] ↔ value.string?.isSome = true := by
  cases value <;> simp [stringViolations, Value.string?]

/-- Rules have no violation exactly when they can be read. -/
theorem rulesViolations_eq_nil_iff :
    rulesViolations place value = [] ↔ (WrittenRules.ofValue? value).isSome = true := by
  cases value with
  | array items =>
    rw [rulesViolations, WrittenRules.ofValue?, Option.isSome_map, Record.isSome_readAll_iff]
    simp [Option.isSome_iff_ne_none]
  | _ => simp [rulesViolations, WrittenRules.ofValue?]

/-- Nothing is wrong where an object is expected exactly if there is one whose members are all in
order. -/
theorem objectViolations_eq_nil_iff
    {member : List String → String → Value → List Violation} :
    objectViolations member place value = [] ↔
      ∃ members ∈ value.object?, ∀ entry ∈ members.entries,
        member (place ++ [entry.1]) entry.1 entry.2 = [] := by
  rw [objectViolations]
  cases value.object? with
  | none => simp
  | some members => simp [List.flatMap_eq_nil_iff]

theorem unexpectedViolations_eq_nil_iff
    {declared : List String}
    {members : Row} :
    unexpectedViolations declared place members = [] ↔ ∀ key ∈ members.keys, key ∈ declared := by
  have none : (members.keys.filter fun key => !declared.contains key) = [] ↔
      ∀ key ∈ members.keys, key ∈ declared := by
    simp [List.filter_eq_nil_iff]
  rw [← none, unexpectedViolations]
  split
  · next equal => simp only [equal]
  · next properties nonempty => simpa using nonempty

/-- A member of a method is in order if it has the shape that its key asks for. -/
theorem methodMemberViolations_eq_nil_iff
    {key : String} :
    methodMemberViolations place key value = [] ↔
      (key = "rules" → (Record.mapOf WrittenRules.ofValue? value).isSome = true) ∧
        (key = "defaults" → value.object?.isSome = true) ∧
        (key = "templates" → ∃ texts ∈ value.object?, Value.TextMembers texts) := by
  rw [methodMemberViolations]
  split
  · next same =>
    subst same
    rw [objectViolations_eq_nil_iff, Record.isSome_mapOf_iff]
    simp [rulesViolations_eq_nil_iff]
  · next notRules =>
    split
    · next same =>
      subst same
      rw [objectViolations_eq_nil_iff]
      simp [Option.isSome_iff_exists]
    · next notDefaults =>
      split
      · next same =>
        subst same
        rw [objectViolations_eq_nil_iff]
        simp [stringViolations_eq_nil_iff, Value.TextMembers]
      · next notTemplates => simp [notRules, notDefaults, notTemplates]

theorem methodViolations_of_object
    {members : Row}
    (written : value.object? = some members) :
    methodViolations place value = [] ↔ WrittenMethod.Shaped members := by
  have each :=
    members.forall_entries_iff fun key held =>
      methodMemberViolations (place ++ [key]) key held = []
  simp only [methodMemberViolations_eq_nil_iff] at each
  rw [methodViolations, List.append_eq_nil_iff, objectViolations_eq_nil_iff, written]
  simp only [methodMemberViolations_eq_nil_iff, Option.mem_some_iff, exists_eq_left',
    unexpectedViolations_eq_nil_iff, each]
  constructor
  · rintro ⟨held, known⟩
    exact
      { known := known
        rules := fun rules found => (held _ rules found).1 rfl
        defaults := fun defaults found => (held _ defaults found).2.1 rfl
        templates := fun templates found => (held _ templates found).2.2 rfl }
  · intro shaped
    refine ⟨fun key held found => ⟨?_, ?_, ?_⟩, shaped.known⟩
    · rintro rfl
      exact shaped.rules held found
    · rintro rfl
      exact shaped.defaults held found
    · rintro rfl
      exact shaped.templates held found

/-- A method raises no violation when it is an object and can be read with templates of text. -/
theorem methodViolations_eq_nil_iff :
    methodViolations place value = [] ↔
      value.object?.isSome = true ∧
        ∃ method ∈ WrittenMethod.ofValue? value, method.HasTextTemplates := by
  cases written : value.object? with
  | none => simp [methodViolations, objectViolations, written]
  | some members =>
    rw [methodViolations_of_object written, WrittenMethod.exists_mem_ofValue?_iff written]
    simp

/-- The members that a document may have, in the order of their declaration. -/
def declared : List String := ["config_version", "methods"]

/-- What is asked of the members of a document that is written as an object. -/
structure Shaped (members : Row) : Prop where
  known : ∀ key ∈ members.keys, key ∈ declared
  version : ∃ version ∈ members.get? "config_version", version.string?.isSome = true
  methods :
    ∃ methods ∈ members.get? "methods", ∃ written ∈ methods.object?,
      ∀ entry ∈ written.entries,
        entry.2.object?.isSome = true ∧
          ∃ method ∈ WrittenMethod.ofValue? entry.2, method.HasTextTemplates

/-- What is read from a document that is written as an object. -/
theorem ofValue?_eq_some_iff
    {members : Row}
    (written : value.object? = some members)
    {document : Document} :
    ofValue? value = some document ↔
      (∀ key ∈ members.keys, key ∈ declared) ∧
        members.get? "config_version" = some (.string document.version) ∧
        ∃ methods ∈ members.get? "methods",
          ∃ entries ∈ Record.mapOf WrittenMethod.ofValue? methods,
            document.methods = .ofList entries := by
  by_cases known : ∀ key ∈ members.keys, key ∈ declared
  · have read :
        ofValue? value =
          (Record.required Value.string? (members.get? "config_version")).bind fun version =>
            (Record.required (Record.mapOf WrittenMethod.ofValue?) (members.get? "methods")).bind
              fun methods => some ⟨version, .ofList methods⟩ := by
      rw [ofValue?, ← declared, Record.members?_closed_of_object written, if_pos known]
      rfl
    rw [read, and_iff_right known]
    simp only [Record.required, Option.bind_eq_some_iff, Option.some.injEq,
      Value.string?_eq_some_iff]
    constructor
    · rintro ⟨version, ⟨_, given, rfl⟩, entries, ⟨methods, held, readable⟩, rfl⟩
      exact ⟨given, methods, held, entries, readable, rfl⟩
    · rintro ⟨given, methods, held, entries, readable, same⟩
      refine ⟨document.version, ⟨_, given, rfl⟩, entries, ⟨methods, held, readable⟩, ?_⟩
      rw [← same]
  · rw [ofValue?, ← declared, Record.members?_closed_of_object written, if_neg known]
    simp [known]

/-- The version of a document stands in the value that it is read from. -/
theorem version_of_ofValue?
    (isObject : value.object?.isSome = true)
    {document : Document}
    (read : ofValue? value = some document) :
    value.member? "config_version" = some (.string document.version) := by
  rcases Option.isSome_iff_exists.1 isObject with ⟨members, written⟩
  rw [Value.member?, written, Option.bind_some]
  exact ((ofValue?_eq_some_iff written).1 read).2.1

/-- The names of the methods of a document are the keys under which the value lists methods. -/
theorem forall_names_iff
    (isObject : value.object?.isSome = true)
    {document : Document}
    (read : ofValue? value = some document)
    (holds : String → Prop) :
    (∀ entry ∈ document.methods.entries, holds entry.1) ↔
      ∀ methods ∈ value.member? "methods", ∀ written ∈ methods.object?,
        ∀ name ∈ written.keys, holds name := by
  rcases Option.isSome_iff_exists.1 isObject with ⟨members, written⟩
  rcases (ofValue?_eq_some_iff written).1 read with
    ⟨_, _, methods, found, entries, readable, same⟩
  rcases Record.mapOf_eq_some_iff.1 readable with ⟨listed, isMap, each⟩
  have keys : Entries.keys entries = listed.keys := Record.keys_of_readMembers each
  have distinct := Record.nodup_keys_of_mapOf readable
  have only : value.member? "methods" = some methods := by
    rw [Value.member?, written, Option.bind_some]
    exact found
  rw [only, same]
  simp only [Option.mem_some_iff, forall_eq', isMap, ← keys]
  constructor
  · intro all name member
    rcases List.mem_map.1 member with ⟨entry, entryListed, rfl⟩
    exact all entry ((NameTable.mem_entries_ofList_iff distinct).2 entryListed)
  · intro all entry entryListed
    exact all entry.1
      (Entries.mem_keys_of_mem ((NameTable.mem_entries_ofList_iff distinct).1 entryListed))

theorem hasTextTemplates_ofList_iff
    {version : String}
    {methods : List (String × WrittenMethod)}
    (distinct : (Entries.keys methods).Nodup) :
    HasTextTemplates ⟨version, .ofList methods⟩ ↔
      ∀ entry ∈ methods, entry.2.HasTextTemplates := by
  constructor
  · intro texts entry listed
    exact texts entry ((NameTable.mem_entries_ofList_iff distinct).2 listed)
  · intro texts entry listed
    exact texts entry ((NameTable.mem_entries_ofList_iff distinct).1 listed)

/-- A document that is written as an object can be read when its members and its methods can. -/
theorem exists_mem_ofValue?_iff
    {members : Row}
    (written : value.object? = some members) :
    (∃ document ∈ ofValue? value, document.HasTextTemplates) ↔
      (∀ key ∈ members.keys, key ∈ declared) ∧
        (∃ version ∈ members.get? "config_version", version.string?.isSome = true) ∧
        ∃ methods ∈ members.get? "methods", ∃ entries ∈ methods.object?,
          ∀ entry ∈ entries.entries,
            ∃ method ∈ WrittenMethod.ofValue? entry.2, method.HasTextTemplates := by
  constructor
  · rintro ⟨document, read, texts⟩
    rcases (ofValue?_eq_some_iff written).1 read with
      ⟨known, version, methods, held, entries, readable, same⟩
    refine ⟨known, ⟨_, version, rfl⟩, methods, held, ?_⟩
    apply Record.exists_mem_mapOf_iff.1
    refine ⟨entries, readable, ?_⟩
    have whole : document = ⟨document.version, .ofList entries⟩ := by rw [← same]
    rw [whole, hasTextTemplates_ofList_iff (Record.nodup_keys_of_mapOf readable)] at texts
    exact texts
  · rintro ⟨known, ⟨version, given, isText⟩, methods, held, each⟩
    rcases Record.exists_mem_mapOf_iff.2 each with ⟨entries, readable, texts⟩
    rcases Option.isSome_iff_exists.1 isText with ⟨text, same⟩
    rw [Value.string?_eq_some_iff.1 same] at given
    refine ⟨⟨text, .ofList entries⟩, ?_, ?_⟩
    · exact (ofValue?_eq_some_iff written).2 ⟨known, given, methods, held, entries, readable, rfl⟩
    · exact (hasTextTemplates_ofList_iff (Record.nodup_keys_of_mapOf readable)).2 texts

theorem memberViolations_eq_nil_iff
    {key : String} :
    memberViolations place key value = [] ↔
      (key = "config_version" → value.string?.isSome = true) ∧
        (key = "methods" →
          ∃ written ∈ value.object?, ∀ entry ∈ written.entries,
            entry.2.object?.isSome = true ∧
              ∃ method ∈ WrittenMethod.ofValue? entry.2, method.HasTextTemplates) := by
  rw [memberViolations]
  split
  · next same =>
    subst same
    simp [stringViolations_eq_nil_iff]
  · next notVersion =>
    split
    · next same =>
      subst same
      simp [objectViolations_eq_nil_iff, methodViolations_eq_nil_iff]
    · next notMethods => simp [notVersion, notMethods]

theorem missingViolations_eq_nil_iff
    {members : Row} :
    missingViolations members = [] ↔ ∀ key ∈ declared, key ∈ members.keys := by
  simp [missingViolations, declared]

/-- A document written as an object is in order exactly if its members have their shapes. -/
theorem violations_of_object
    {members : Row}
    (written : value.object? = some members) :
    violations value = [] ↔ Shaped members := by
  have each :=
    members.forall_entries_iff fun key held => memberViolations ([] ++ [key]) key held = []
  simp only [memberViolations_eq_nil_iff] at each
  simp only [violations, written, List.append_eq_nil_iff, objectViolations_eq_nil_iff,
    memberViolations_eq_nil_iff, Option.mem_some_iff, exists_eq_left',
    unexpectedViolations_eq_nil_iff, missingViolations_eq_nil_iff, each]
  constructor
  · rintro ⟨⟨present, held⟩, known⟩
    have given : ∀ key ∈ declared, ∃ value, members.get? key = some value := by
      intro key listed
      exact Option.isSome_iff_exists.1 (Entries.get?_isSome_iff.2 (present key listed))
    rcases given "config_version" (by simp [declared]) with ⟨version, versionFound⟩
    rcases given "methods" (by simp [declared]) with ⟨methods, methodsFound⟩
    exact
      { known := known
        version := ⟨version, versionFound, (held _ version versionFound).1 rfl⟩
        methods := ⟨methods, methodsFound, (held _ methods methodsFound).2 rfl⟩ }
  · rintro ⟨known, ⟨version, versionFound, isText⟩, methods, methodsFound, shaped⟩
    refine ⟨⟨?_, ?_⟩, known⟩
    · intro key listed
      rcases List.mem_pair.1 listed with rfl | rfl
      · exact Entries.get?_isSome_iff.1 (Option.isSome_of_mem versionFound)
      · exact Entries.get?_isSome_iff.1 (Option.isSome_of_mem methodsFound)
    · intro key value found
      refine ⟨?_, ?_⟩
      · rintro rfl
        rw [Option.mem_unique found versionFound]
        exact isText
      · rintro rfl
        rw [Option.mem_unique found methodsFound]
        exact shaped

/-- Every method that a value lists is an object. -/
def HasObjectMethods (value : Value) : Prop :=
  ∀ methods ∈ value.member? "methods", ∀ written ∈ methods.object?,
    ∀ entry ∈ written.entries, entry.2.object?.isSome = true

/-- The shape of a value is right when it and its methods are objects and it can be read. -/
theorem violations_eq_nil_iff :
    violations value = [] ↔
      value.object?.isSome = true ∧ HasObjectMethods value ∧
        ∃ document ∈ ofValue? value, document.HasTextTemplates := by
  cases written : value.object? with
  | none => simp [violations, written]
  | some members =>
    have methodsOf : value.member? "methods" = members.get? "methods" := by
      rw [Value.member?, written, Option.bind_some]
    rw [violations_of_object written, exists_mem_ofValue?_iff written, HasObjectMethods,
      methodsOf]
    constructor
    · rintro ⟨known, version, methods, found, entries, listed, each⟩
      refine ⟨rfl, ?_, known, version, methods, found, entries, listed, ?_⟩
      · intro other otherFound others othersListed entry member
        cases Option.mem_unique otherFound found
        cases Option.mem_unique othersListed listed
        exact (each entry member).1
      · intro entry member
        exact (each entry member).2
    · rintro ⟨_, objects, known, version, methods, found, entries, listed, each⟩
      refine ⟨known, version, methods, found, entries, listed, ?_⟩
      intro entry member
      exact ⟨objects methods found entries listed entry member, each entry member⟩

/-- A review of the shape has an error for each violation, in order, and no warnings. -/
theorem reviewShape_eq
    (value : Value) :
    reviewShape value = ⟨(violations value).map Violation.issue, []⟩ := by
  simp [reviewShape, Review.ofIssues, Violation.issue, List.filter_map, Function.comp_def]

/--
The shape of a value raises no error exactly when the value is an object, all its methods are
objects, and it can be read as a document with templates of text only.
-/
theorem errors_reviewShape_eq_nil_iff
    (value : Value) :
    (reviewShape value).errors = [] ↔
      value.object?.isSome = true ∧ HasObjectMethods value ∧
        ∃ document ∈ ofValue? value, document.HasTextTemplates := by
  rw [reviewShape_eq, List.map_eq_nil_iff]
  exact violations_eq_nil_iff

-- A document in the form of a list is read, and its shape is refused all the same.
example :
    (ofValue? (.array [.string "0.1", .object []])).isSome = true ∧
      (violations (.array [.string "0.1", .object []])).length = 1 := by
  decide +kernel

end Document

end Assortment
