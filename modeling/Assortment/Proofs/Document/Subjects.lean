import Assortment.Proofs.Document.Findings
import Assortment.Proofs.Document.Pointers
import Assortment.Proofs.Document.Shape

/-!
# What findings are about

Every finding names a place, and at this place the value that the document was read from holds what
the finding is about: the version, the object of all methods, a method, the rules of a field, a
default or a template.  This follows from what each finding comes from in the document, and from how
the parts of a document were read from the parts of the value.

The path of a finding leads to its place exactly when no key of the place has a slash or a tilde.
With such names the path is read as another place or as none, and findings about different places
can be reported alike; the pointer in which keys are escaped always leads there.
-/

namespace Assortment

namespace Value

/-- What a value holds at a place, keys that are followed from the root. -/
def at? (value : Value) : List String → Option Value
  | [] => some value
  | key :: rest => (value.member? key).bind fun inner => inner.at? rest

/-- What a value holds where a pointer leads. -/
def resolve? (value : Value) (pointer : String) : Option Value :=
  (Pointer.keys? pointer).bind value.at?

theorem member?_of_object
    {value : Value}
    {members : Row}
    (written : value.object? = some members)
    (key : String) :
    value.member? key = members.get? key := by
  rw [member?, written, Option.bind_some]

theorem at?_append
    (value : Value)
    (front back : List String) :
    value.at? (front ++ back) = (value.at? front).bind fun inner => inner.at? back := by
  induction front generalizing value with
  | nil => rfl
  | cons key rest inductionHypothesis =>
    rw [List.cons_append, at?, at?, Option.bind_assoc]
    exact Option.bind_congr fun inner _ => inductionHypothesis inner

theorem at?_cons_of_member?
    {value inner : Value}
    {key : String}
    (held : value.member? key = some inner)
    (rest : List String) :
    value.at? (key :: rest) = inner.at? rest := by
  rw [at?, held, Option.bind_some]

end Value

namespace Record

variable
    {α : Type}
    {read : Value → Option α}

/-- What was read from an object stands in the object under its key. -/
theorem exists_member?_of_mapOf
    {value : Value}
    {entries : List (String × α)}
    (found : mapOf read value = some entries)
    {key : String}
    {part : α}
    (listed : (key, part) ∈ entries) :
    ∃ inner, value.member? key = some inner ∧ read inner = some part := by
  rcases mapOf_eq_some_iff.1 found with ⟨members, written, readable⟩
  rcases exists_member_of_mem readable listed with ⟨inner, inside, readInner⟩
  refine ⟨inner, ?_, readInner⟩
  rw [Value.member?_of_object written]
  exact OrderedMap.get?_eq_some_iff.2 inside

end Record

namespace WrittenMethod

variable
    {value : Value}
    {members : Row}
    {method : WrittenMethod}

/-- Where the parts of a method stand in the value that it was read from. -/
structure ReadFrom (value : Value) (method : WrittenMethod) : Prop where
  rules :
    ∀ field written, (field, written) ∈ method.rules.entries →
      ∃ source, value.at? ["rules", field] = some source ∧
        WrittenRules.ofValue? source = some written
  defaults :
    ∀ field default, (field, default) ∈ method.defaults.entries →
      value.at? ["defaults", field] = some default
  templates :
    ∀ field template, (field, template) ∈ method.templates.entries →
      value.at? ["templates", field] = some template

/-- The rules of a field were read from the value under the field's key. -/
theorem exists_source_of_mem
    {rules : List (String × WrittenRules)}
    (read :
      Record.withDefault [] (Record.mapOf WrittenRules.ofValue?) (members.get? "rules") =
        some rules)
    (written : value.object? = some members)
    {field : String}
    {fieldRules : WrittenRules}
    (listed : (field, fieldRules) ∈ (NameTable.ofList rules).entries) :
    ∃ source, value.at? ["rules", field] = some source ∧
      WrittenRules.ofValue? source = some fieldRules := by
  cases given : members.get? "rules" with
  | none =>
    rw [given] at read
    cases read
    cases listed
  | some source =>
    rw [given] at read
    have distinct := Record.nodup_keys_of_mapOf read
    have inside := (NameTable.mem_entries_ofList_iff distinct).1 listed
    rcases Record.exists_member?_of_mapOf read inside with ⟨inner, held, readable⟩
    refine ⟨inner, ?_, readable⟩
    rw [Value.at?_cons_of_member? (by rw [Value.member?_of_object written, given]),
      Value.at?_cons_of_member? held, Value.at?]

/-- A default or a template stands in the value under the keys it was read from. -/
theorem at?_of_mem
    {key : String}
    {map : Row}
    (read : Record.withDefault .empty Value.object? (members.get? key) = some map)
    (written : value.object? = some members)
    {field : String}
    {part : Value}
    (listed : (field, part) ∈ map.entries) :
    value.at? [key, field] = some part := by
  cases given : members.get? key with
  | none =>
    rw [given] at read
    cases read
    cases listed
  | some source =>
    rw [given] at read
    have held : source.member? field = some part := by
      rw [Value.member?_of_object read]
      exact OrderedMap.get?_eq_some_iff.2 listed
    rw [Value.at?_cons_of_member? (by rw [Value.member?_of_object written, given]),
      Value.at?_cons_of_member? held, Value.at?]

theorem readFrom_of_ofValue?
    (isObject : value.object?.isSome = true)
    (read : ofValue? value = some method) :
    ReadFrom value method := by
  rcases Option.isSome_iff_exists.1 isObject with ⟨members, written⟩
  have known : ∀ key ∈ members.keys, key ∈ declared := by
    by_contra unknown
    rw [ofValue?, ← declared, Record.members?_closed_of_object written, if_neg unknown] at read
    cases read
  rw [ofValue?_of_object written known] at read
  rcases Option.bind_eq_some_iff.1 read with ⟨rules, rulesRead, read⟩
  rcases Option.bind_eq_some_iff.1 read with ⟨defaults, defaultsRead, read⟩
  rcases Option.bind_eq_some_iff.1 read with ⟨templates, templatesRead, same⟩
  cases same
  constructor
  case rules => exact fun _ _ => exists_source_of_mem rulesRead written
  case defaults => exact fun _ _ => at?_of_mem defaultsRead written
  case templates => exact fun _ _ => at?_of_mem templatesRead written

end WrittenMethod

namespace Document

variable
    {value : Value}
    {document : Document}

/-- Where the parts of a document stand in the value that it was read from. -/
structure ReadFrom (value : Value) (document : Document) : Prop where
  version :
    value.at? ["config_version"] = some (.string document.version)
  methods :
    ∃ methods, value.at? ["methods"] = some methods ∧
      (document.methods.entries = [] → methods.object? = some .empty)
  method :
    ∀ name method, (name, method) ∈ document.methods.entries →
      ∃ source, value.at? ["methods", name] = some source ∧
        WrittenMethod.ofValue? source = some method ∧ WrittenMethod.ReadFrom source method

theorem readFrom_of_ofValue?
    (isObject : value.object?.isSome = true)
    (objects : HasObjectMethods value)
    (read : ofValue? value = some document) :
    ReadFrom value document := by
  rcases Option.isSome_iff_exists.1 isObject with ⟨members, written⟩
  rcases (ofValue?_eq_some_iff written).1 read with
    ⟨_, version, methods, held, entries, readable, same⟩
  have distinct := Record.nodup_keys_of_mapOf readable
  have methodsOf : value.member? "methods" = some methods := by
    rw [Value.member?_of_object written]
    exact held
  constructor
  case version =>
    have versionOf : value.member? "config_version" = some (.string document.version) := by
      rw [Value.member?_of_object written, version]
    rw [Value.at?_cons_of_member? versionOf, Value.at?]
  case methods =>
    rcases Record.mapOf_eq_some_iff.1 readable with ⟨listed, isMap, each⟩
    refine ⟨methods, Value.at?_cons_of_member? methodsOf [], ?_⟩
    intro empty
    have keys : listed.keys = [] := by
      rw [OrderedMap.keys, ← Record.keys_of_readMembers each, List.eq_nil_iff_forall_not_mem]
      intro name named
      rcases List.mem_map.1 named with ⟨entry, inside, rfl⟩
      have kept := (NameTable.mem_entries_ofList_iff distinct).2 inside
      rw [← same, empty] at kept
      cases kept
    have bare : listed = .empty := OrderedMap.ext (List.map_eq_nil_iff.1 keys)
    rw [isMap, bare]
  case method =>
    intro name method listed
    rw [same] at listed
    have inside := (NameTable.mem_entries_ofList_iff distinct).1 listed
    rcases Record.exists_member?_of_mapOf readable inside with ⟨source, found, readSource⟩
    rcases Record.mapOf_eq_some_iff.1 readable with ⟨methodMembers, isMap, _⟩
    have isObject : source.object?.isSome = true := by
      rw [Value.member?_of_object isMap] at found
      exact objects methods methodsOf methodMembers isMap (name, source)
        (OrderedMap.get?_eq_some_iff.1 found)
    refine ⟨source, ?_, readSource, WrittenMethod.readFrom_of_ofValue? isObject readSource⟩
    rw [Value.at?_cons_of_member? methodsOf, Value.at?_cons_of_member? found, Value.at?]

end Document

/-- What a finding says of the value at its place. -/
def Finding.IsAbout : Finding → Value → Prop
  | unsupportedVersion version, subject => subject = .string version
  | noMethods, subject => subject.object? = some .empty
  | blankName _, subject => (WrittenMethod.ofValue? subject).isSome = true
  | faultyRule _ _ fault, subject =>
    ∃ written ∈ WrittenRules.ofValue? subject, ∃ rule ∈ written.ruleList.rules,
      rule.fault? = some fault
  | failingDefault _ _ candidate _, subject => candidate ∈ subject.candidates
  | emptyTemplate _ _, subject => subject = .string ""
  | forwardReference _ _ name, subject =>
    ∃ text, subject = .string text ∧ name ∈ Placeholder.names text

/-- What a finding about a method comes from. -/
inductive WrittenMethod.Shows (name : String) (method : WrittenMethod) : Finding → Prop
  | blankName :
      Shows name method (.blankName name)
  | faultyRule
      {field : String}
      {written : WrittenRules}
      {rule : Rule}
      {fault : RuleFault}
      (ruled : (field, written) ∈ method.rules.entries)
      (listed : rule ∈ written.ruleList.rules)
      (faulty : rule.fault? = some fault) :
      Shows name method (.faultyRule name field fault)
  | failingDefault
      {field : String}
      {default candidate : Value}
      {rule : Rule}
      (declared : (field, default) ∈ method.defaults.entries)
      (offered : candidate ∈ default.candidates) :
      Shows name method (.failingDefault name field candidate rule)
  | emptyTemplate
      {field : String}
      {template : Value}
      (declared : (field, template) ∈ method.templates.entries)
      (empty : template.string?.getD "" = "") :
      Shows name method (.emptyTemplate name field)
  | forwardReference
      {field other : String}
      {template : Value}
      (declared : (field, template) ∈ method.templates.entries)
      (referred : other ∈ Placeholder.names (template.string?.getD "")) :
      Shows name method (.forwardReference name field other)

namespace WrittenMethod

variable
    {name : String}
    {method : WrittenMethod}
    {finding : Finding}

theorem exists_template_of_mem
    {templates : List (String × Value)}
    (found : finding ∈ templateFindingsOf name templates) :
    ∃ field template, (field, template) ∈ templates ∧
      (template.string?.getD "" = "" ∧ finding = .emptyTemplate name field ∨
        ∃ other ∈ Placeholder.names (template.string?.getD ""),
          finding = .forwardReference name field other) := by
  induction templates with
  | nil => cases found
  | cons template later inductionHypothesis =>
    rcases template with ⟨field, value⟩
    simp only [templateFindingsOf, List.mem_append, List.mem_map, List.mem_filter] at found
    rcases found with (empty | ⟨other, ⟨named, _⟩, rfl⟩) | behind
    · split at empty
      · next blank =>
        exact ⟨field, value, List.mem_cons_self,
          .inl ⟨String.isEmpty_iff.1 blank, List.mem_singleton.1 empty⟩⟩
      · cases empty
    · exact ⟨field, value, List.mem_cons_self, .inr ⟨other, named, rfl⟩⟩
    · rcases inductionHypothesis behind with ⟨field, value, listed, cause⟩
      exact ⟨field, value, List.mem_cons_of_mem _ listed, cause⟩

/-- Every finding about a method shows something the method contains. -/
theorem shows_of_mem
    (found : finding ∈ method.findings name) :
    Shows name method finding := by
  simp only [findings, List.mem_append] at found
  rcases found with ((blank | rule) | default) | template
  · split at blank
    · rw [List.mem_singleton.1 blank]
      exact .blankName
    · cases blank
  · simp only [ruleFindings, List.mem_flatMap, List.mem_map, List.mem_filterMap] at rule
    rcases rule with ⟨⟨field, written⟩, ruled, fault, ⟨rule, listed, faulty⟩, rfl⟩
    exact .faultyRule ruled listed faulty
  · rw [defaultFindings_eq] at default
    rcases List.mem_flatMap.1 default with ⟨⟨field, value⟩, declared, failing⟩
    rw [defaultFindingsOf] at failing
    split at failing
    · cases failing
    · rcases List.mem_filterMap.1 failing with ⟨candidate, offered, failed⟩
      rcases Option.map_eq_some_iff.1 failed with ⟨rule, _, rfl⟩
      exact .failingDefault declared offered
  · rcases exists_template_of_mem template with
      ⟨field, value, declared, ⟨empty, rfl⟩ | ⟨other, referred, rfl⟩⟩
    · exact .emptyTemplate declared empty
    · exact .forwardReference declared referred

theorem exists_text_of_declared
    {field : String}
    {template : Value}
    (texts : method.HasTextTemplates)
    (declared : (field, template) ∈ method.templates.entries) :
    ∃ text, template = .string text := by
  rcases Option.isSome_iff_exists.1 (texts (field, template) declared) with ⟨text, isText⟩
  exact ⟨text, Value.string?_eq_some_iff.1 isText⟩

/-- What is found about a method stands at the place of the finding below the method. -/
theorem Shows.exists_subject
    {value source : Value}
    (shows : Shows name method finding)
    (held : value.at? ["methods", name] = some source)
    (read : ofValue? source = some method)
    (parts : ReadFrom source method)
    (texts : method.HasTextTemplates) :
    ∃ subject, value.at? finding.place = some subject ∧ finding.IsAbout subject := by
  have below :
      ∀ inner, value.at? (["methods", name] ++ inner) = source.at? inner := by
    intro inner
    rw [Value.at?_append, held, Option.bind_some]
  cases shows with
  | blankName => exact ⟨source, held, by rw [Finding.IsAbout, read, Option.isSome_some]⟩
  | faultyRule ruled listed faulty =>
    rcases parts.rules _ _ ruled with ⟨subject, found, readable⟩
    exact ⟨subject, (below _).trans found, _, readable, _, listed, faulty⟩
  | failingDefault declared offered =>
    exact ⟨_, (below _).trans (parts.defaults _ _ declared), offered⟩
  | emptyTemplate declared empty =>
    rcases exists_text_of_declared texts declared with ⟨text, rfl⟩
    exact ⟨_, (below _).trans (parts.templates _ _ declared), congrArg Value.string empty⟩
  | forwardReference declared referred =>
    rcases exists_text_of_declared texts declared with ⟨text, rfl⟩
    exact ⟨_, (below _).trans (parts.templates _ _ declared), text, rfl, referred⟩

end WrittenMethod

namespace Document

variable
    {value : Value}
    {document : Document}
    {finding : Finding}

/-- What is found in a document stands at the place of the finding. -/
theorem exists_subject_of_mem
    (parts : ReadFrom value document)
    (texts : document.HasTextTemplates)
    (found : finding ∈ document.findings) :
    ∃ subject, value.at? finding.place = some subject ∧ finding.IsAbout subject := by
  simp only [findings, List.mem_append, List.mem_flatMap] at found
  rcases found with (version | missing) | ⟨⟨name, method⟩, listed, inMethod⟩
  · split at version
    · cases version
    · rw [List.mem_singleton.1 version]
      exact ⟨_, parts.version, rfl⟩
  · split at missing
    · next empty =>
      rw [List.mem_singleton.1 missing]
      rcases parts.methods with ⟨methods, held, bare⟩
      exact ⟨methods, held, bare (List.isEmpty_iff.1 empty)⟩
    · cases missing
  · rcases parts.method name method listed with ⟨source, held, read, methodParts⟩
    exact (WrittenMethod.shows_of_mem inMethod).exists_subject held read methodParts
      (texts (name, method) listed)

end Document

namespace Finding

theorem path_issue
    (finding : Finding) :
    finding.issue.path = finding.path := by
  cases finding with
  | faultyRule method field fault => cases fault <;> rfl
  | _ => rfl

/-- No finding is about the document as a whole. -/
theorem place_ne_nil
    (finding : Finding) :
    finding.place ≠ [] := by
  cases finding <;> exact List.cons_ne_nil _ _

/-- The path under which a finding is reported leads to its place exactly when all keys are plain. -/
theorem keys?_path_iff
    (finding : Finding) :
    Pointer.keys? finding.issue.path = some finding.place ↔
      ∀ key ∈ finding.place, Pointer.IsPlain key := by
  rw [path_issue, path]
  exact Pointer.keys?_join_iff

end Finding

namespace Document

/-- How the issues of a document are located in the value that it was read from. -/
structure LocatesIssues (value : Value) (document : Document) : Prop where
  reported :
    ∀ issue ∈ document.review.errors ++ document.review.warnings,
      ∃ finding ∈ document.findings, finding.issue = issue
  /-- The pointer with escaped keys leads to what the finding is about. -/
  escaped :
    ∀ finding ∈ document.findings,
      ∃ subject,
        value.resolve? (Violation.pointer finding.place) = some subject ∧ finding.IsAbout subject
  pointed_iff :
    ∀ finding ∈ document.findings,
      Pointer.keys? finding.issue.path = some finding.place ↔
        ∀ key ∈ finding.place, Pointer.IsPlain key
  resolved :
    ∀ finding ∈ document.findings, (∀ key ∈ finding.place, Pointer.IsPlain key) →
      ∃ subject, value.resolve? finding.issue.path = some subject ∧ finding.IsAbout subject
  separated :
    ∀ finding ∈ document.findings, ∀ other ∈ document.findings,
      (∀ key ∈ finding.place, Pointer.IsPlain key) → (∀ key ∈ other.place, Pointer.IsPlain key) →
        finding.issue.path = other.issue.path → finding.place = other.place

/--
A value of the right shape is read as a document all of whose issues come from findings, and the
path of an issue leads to what it is about exactly when the keys on the way have neither slashes nor
tildes.  Issues about different places that have such keys have different paths.
-/
theorem locatesIssues_of_shaped
    {value : Value}
    (shaped : (reviewShape value).errors = []) :
    ∃ document, ofValue? value = some document ∧ LocatesIssues value document := by
  rw [reviewShape_eq, List.map_eq_nil_iff] at shaped
  rcases violations_eq_nil_iff.1 shaped with ⟨isObject, objects, document, read, texts⟩
  have parts := readFrom_of_ofValue? isObject objects read
  refine ⟨document, read, ?_⟩
  constructor
  case reported =>
    intro issue listed
    rw [review_eq, ← List.map_append] at listed
    rcases List.mem_map.1 listed with ⟨finding, picked, same⟩
    rcases List.mem_append.1 picked with blocking | other
    · exact ⟨finding, List.mem_of_mem_filter blocking, same⟩
    · exact ⟨finding, List.mem_of_mem_filter other, same⟩
  case escaped =>
    intro finding found
    rw [Value.resolve?, Pointer.keys?_pointer finding.place_ne_nil, Option.bind_some]
    exact exists_subject_of_mem parts texts found
  case pointed_iff => exact fun finding _ => finding.keys?_path_iff
  case resolved =>
    intro finding found plain
    rw [Value.resolve?, finding.keys?_path_iff.2 plain, Option.bind_some]
    exact exists_subject_of_mem parts texts found
  case separated =>
    intro finding _ other _ plain otherPlain same
    have pointed := finding.keys?_path_iff.2 plain
    rw [same, other.keys?_path_iff.2 otherPlain] at pointed
    exact (Option.some.inj pointed).symm

/-- A document of another version with a rule that is not known and an empty template. -/
def shelfDocument : Value :=
  .object
    [("config_version", .string "0.2"),
      ("methods", .object
        [("shelf", .object
          [("rules", .object [("side", .string "shout")]),
            ("templates", .object [("label", .string "")])])])]

/-- A document with three findings, each at the place its pointer resolves to. -/
theorem shelf_issues_located :
    (reviewShape shelfDocument).errors = [] ∧
      ∃ document, ofValue? shelfDocument = some document ∧
        LocatesIssues shelfDocument document ∧
        document.findings =
          [.unsupportedVersion "0.2", .faultyRule "shelf" "side" (.unknown "shout"),
            .emptyTemplate "shelf" "label"] ∧
        shelfDocument.resolve? "/methods/shelf/rules/side" = some (.string "shout") := by
  have shaped : (reviewShape shelfDocument).errors = [] := by decide +kernel
  have listed :
      (ofValue? shelfDocument).map findings =
        some
          [.unsupportedVersion "0.2", .faultyRule "shelf" "side" (.unknown "shout"),
            .emptyTemplate "shelf" "label"] := by
    decide +kernel
  rcases locatesIssues_of_shaped shaped with ⟨document, read, locates⟩
  rw [read] at listed
  exact ⟨shaped, document, read, locates, Option.some.inj listed, by decide +kernel⟩

/-- A document in which the name of one method goes on where a path through another one does. -/
def slashedDocument : Value :=
  .object
    [("config_version", .string "0.1"),
      ("methods", .object
        [("shelf", .object [("rules", .object [("top/rules/side", .string "shout")])]),
          ("shelf/rules/top", .object [("rules", .object [("side", .string "shout")])])])]

/-- The unknown rules of two fields are reported in the same issue, whose path leads nowhere. -/
theorem slashed_issues_coincide :
    (reviewShape slashedDocument).errors = [] ∧
      (ofValue? slashedDocument).map findings =
        some
          [.faultyRule "shelf" "top/rules/side" (.unknown "shout"),
            .faultyRule "shelf/rules/top" "side" (.unknown "shout")] ∧
      Finding.issue (.faultyRule "shelf" "top/rules/side" (.unknown "shout")) =
        Finding.issue (.faultyRule "shelf/rules/top" "side" (.unknown "shout")) ∧
      (Finding.issue (.faultyRule "shelf" "top/rules/side" (.unknown "shout"))).path =
        "/methods/shelf/rules/top/rules/side" ∧
      slashedDocument.resolve? "/methods/shelf/rules/top/rules/side" = none := by
  refine ⟨?_, ?_, ?_, ?_, ?_⟩ <;> decide +kernel

end Document

end Assortment
