import Assortment.Rule.Basic

/-!
# Rule lists

The rules of one field are a list, written on one line with bars between them or given as separate
segments.  Empty segments are skipped.  A value is checked against the rules from left to right,
and what is reported is the first rule that it fails.
-/

namespace Assortment

/-- The rules of one field, in the order in which they are checked. -/
structure RuleList where
  rules : List Rule
  deriving DecidableEq, Inhabited

namespace RuleList

/-- The list without rules, which every candidate passes. -/
def empty : RuleList := ⟨[]⟩

/-- The rules of a list of segments, of which empty ones are skipped. -/
def ofSegments (segments : List String) : RuleList :=
  ⟨(segments.filter fun segment => !segment.isEmpty).map Rule.parse⟩

/-- The rules of a line, divided at its bars. -/
def parse (line : String) : RuleList :=
  ofSegments (Text.splitAt '|' line)

/-- The rules on one line, with bars between them. -/
def text (list : RuleList) : String :=
  "|".intercalate (list.rules.map Rule.text)

def size (list : RuleList) : Nat :=
  list.rules.length

def isEmpty (list : RuleList) : Bool :=
  list.rules.isEmpty

/-- Whether one of the rules asks for a value that is not blank. -/
def isRequired (list : RuleList) : Bool :=
  list.rules.any fun rule => rule.criterion = .required

/-- The first rule that a value fails. -/
def firstFailure? (list : RuleList) (value : Value) : Option Rule :=
  list.rules.find? fun rule => !rule.accepts value

/-- Whether a value passes all rules. -/
def accepts (list : RuleList) (value : Value) : Bool :=
  (list.firstFailure? value).isNone

/-- A value passes the list exactly when it passes each of its rules. -/
theorem accepts_iff
    {list : RuleList}
    {value : Value} :
    list.accepts value = true ↔ ∀ rule ∈ list.rules, rule.accepts value = true := by
  simp [accepts, firstFailure?]

example : (parse "required||min[1]").text = "required|min[1]" := by decide +kernel

end RuleList

end Assortment
