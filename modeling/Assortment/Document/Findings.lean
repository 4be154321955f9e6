import Assortment.Document.Basic
import Assortment.Issue
import Assortment.Json.Printer
import Assortment.Template.Placeholder

/-!
# Findings about a document

A document that has the right shape is looked at for what it means.  A version that is not
supported and a blank method name are errors.  Rules that cannot do what they seem to ask,
defaults that fail the rules of their field, empty templates and templates that refer to the
output of a later one are warnings.

The findings of a document are listed by cause; `Finding.issue` gives each the code, the place and
the words in which it is reported.
-/

namespace Assortment

/-- A way in which a rule does not do what it seems to ask. -/
inductive RuleFault where
  | unknown (name : String)
  | boundMissing (rule : Rule)
  | boundNotNumeric (name parameter : String)
  | listMissing
  deriving DecidableEq

/-- The fault of a rule, if it has one. -/
def Rule.fault? (rule : Rule) : Option RuleFault :=
  match rule.criterion, rule.parameter with
  | .unknown name, _ => some (.unknown name)
  | .min _, none | .max _, none => some (.boundMissing rule)
  | .min _, some parameter | .max _, some parameter =>
    if (Numeral.ofText? parameter).isNone then
      some (.boundNotNumeric rule.name parameter)
    else
      none
  | .oneOf _, none => some .listMissing
  | _, _ => none

/-- One thing found in a document. -/
inductive Finding where
  | unsupportedVersion (version : String)
  | noMethods
  | blankName (method : String)
  | faultyRule (method field : String) (fault : RuleFault)
  | failingDefault (method field : String) (candidate : Value) (rule : Rule)
  | emptyTemplate (method field : String)
  | forwardReference (method field name : String)
  deriving DecidableEq

namespace Finding

/-- The keys that lead to what the finding is about. -/
def place : Finding → List String
  | unsupportedVersion _ => ["config_version"]
  | noMethods => ["methods"]
  | blankName method => ["methods", method]
  | faultyRule method field _ => ["methods", method, "rules", field]
  | failingDefault method field _ _ => ["methods", method, "defaults", field]
  | emptyTemplate method field => ["methods", method, "templates", field]
  | forwardReference method field _ => ["methods", method, "templates", field]

/-- The keys of the place, each behind a slash and written as it is. -/
def path (finding : Finding) : String :=
  String.join (finding.place.map ("/" ++ ·))

/-- The rules that are known, as they are listed to a reader. -/
def knownRules : String :=
  "required, numeric, integer, decimal, natural, natural_no_zero, min[n], max[n], val[a,b]"

/-- The warning about a fault of a rule, at the path of the rules that it is one of. -/
def ruleIssue (path : String) : RuleFault → Issue
  | .unknown name =>
    { severity := .warning
      code := "unknown_rule"
      path := path
      message := "rule '" ++ name ++ "' is not recognised and always passes"
      hint := some ("known rules: " ++ knownRules) }
  | .boundMissing rule =>
    { severity := .warning
      code := "rule_param_missing"
      path := path
      message := "rule '" ++ rule.text ++ "' has no bound; 0 is used" }
  | .boundNotNumeric name parameter =>
    { severity := .warning
      code := "rule_param_not_numeric"
      path := path
      message := "bound '" ++ parameter ++ "' of rule '" ++ name ++ "' is not numeric" }
  | .listMissing =>
    { severity := .warning
      code := "rule_param_missing"
      path := path
      message := "rule 'val' has no allow-list; only the empty string passes" }

/-- The issue in which a finding is reported, with its code, path and message. -/
def issue (finding : Finding) : Issue :=
  match finding with
  | unsupportedVersion version =>
    { severity := .error
      code := "config_version_mismatch"
      path := finding.path
      message :=
        "config_version '" ++ version ++ "' is not supported (expected '" ++
          Document.supportedVersion ++ "')"
      hint := some ("set config_version = \"" ++ Document.supportedVersion ++ "\"") }
  | noMethods =>
    { severity := .warning
      code := "methods_empty"
      path := finding.path
      message := "document declares no methods" }
  | blankName _ =>
    { severity := .error
      code := "method_name_empty"
      path := finding.path
      message := "method name must not be empty" }
  | faultyRule _ _ fault => ruleIssue finding.path fault
  | failingDefault _ _ candidate rule =>
    { severity := .warning
      code := "default_fails_rules"
      path := finding.path
      message :=
        "default " ++ Json.render candidate ++ " fails rule '" ++ rule.text ++ "'" }
  | emptyTemplate _ field =>
    { severity := .warning
      code := "template_empty"
      path := finding.path
      message := "template for '" ++ field ++ "' is empty" }
  | forwardReference _ field name =>
    { severity := .warning
      code := "template_forward_reference"
      path := finding.path
      message :=
        "template '" ++ field ++ "' references '" ++ String.ofList (Placeholder.written name) ++
          "', which is produced by a later template"
      hint := some ("declare the '" ++ name ++ "' template before '" ++ field ++ "'") }

end Finding

namespace WrittenMethod

/-- The faulty rules of a method, by field. -/
def ruleFindings (name : String) (method : WrittenMethod) : List Finding :=
  method.rules.entries.flatMap fun entry =>
    (entry.2.ruleList.rules.filterMap Rule.fault?).map (Finding.faultyRule name entry.1)

/-- The candidates of a default that fail the rules of its field, with the rule they fail. -/
def defaultFindings (name : String) (method : WrittenMethod) : List Finding :=
  method.defaults.entries.flatMap fun entry =>
    match method.rules.get? entry.1 with
    | none => []
    | some written =>
      entry.2.candidates.filterMap fun candidate =>
        (written.ruleList.firstFailure? candidate).map
          (Finding.failingDefault name entry.1 candidate)

/-- What is found in templates, given with their fields in order. -/
def templateFindingsOf (name : String) : List (String × Value) → List Finding
  | [] => []
  | (field, template) :: later =>
    let text := template.string?.getD ""
    (if text.isEmpty then [Finding.emptyTemplate name field] else []) ++
      ((Placeholder.names text).filter (Entries.keys later).contains).map
        (Finding.forwardReference name field) ++
      templateFindingsOf name later

/-- All that is found in a method. -/
def findings (name : String) (method : WrittenMethod) : List Finding :=
  (if Text.allBlank name then [Finding.blankName name] else []) ++
    method.ruleFindings name ++ method.defaultFindings name ++
    templateFindingsOf name method.templates.entries

end WrittenMethod

namespace Document

/-- All that is found in a document, in order. -/
def findings (document : Document) : List Finding :=
  (if document.version = supportedVersion then
      []
    else
      [Finding.unsupportedVersion document.version]) ++
    (if document.methods.isEmpty then [Finding.noMethods] else []) ++
    document.methods.entries.flatMap fun entry => entry.2.findings entry.1

/-- The review of what a document means. -/
def review (document : Document) : Review :=
  .ofIssues (document.findings.map Finding.issue)

end Document

end Assortment
