import Assortment.NameTable
import Assortment.Rule.List

/-!
# Methods documents

A methods document is the written form of a set of methods: a version of the format, and for each
method its rules, defaults and templates as they are declared.  The rules of a field are written
on one line or as a list of segments.  A template may be any value here, because whether it is
text is settled only when the method is resolved.
-/

namespace Assortment

/-- The rules of a field as they are written. -/
inductive WrittenRules where
  | line (text : String)
  | segments (texts : List String)
  deriving DecidableEq

/-- The rules that are written, of which a line still has to be cut at its bars. -/
def WrittenRules.ruleList : WrittenRules → RuleList
  | line text => RuleList.parse text
  | segments texts => RuleList.ofSegments texts

/-- A method as it is written. -/
structure WrittenMethod where
  rules : NameTable WrittenRules
  defaults : OrderedMap Value
  templates : OrderedMap Value
  deriving DecidableEq

/-- A method of which nothing is written. -/
def WrittenMethod.empty : WrittenMethod := ⟨.empty, .empty, .empty⟩

/-- The written form of a set of methods. -/
structure Document where
  version : String
  methods : NameTable WrittenMethod
  deriving DecidableEq

/-- The one version of the format that is supported. -/
def Document.supportedVersion : String := "0.1"

end Assortment
