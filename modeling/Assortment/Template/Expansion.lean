import Assortment.Template.Placeholder
import Assortment.Text.Cut
import Assortment.Value.Text

/-!
# Expansion of templates

Expanding a template replaces its known placeholders by text.  The placeholders of all fields of a
row are known, and so is the one of the active groups, unless the row has a field of that name.

The known names are ranked by the length of their placeholders, the longest first, so the first
name whose placeholder begins a text is the one with the longest placeholder.  The expansion goes
from one opening brace to the next.  Where a known placeholder begins, its text is put in and the
expansion goes on behind the placeholder; where none begins, the brace is copied.  Text that was
put in is not looked at again.

The templates of a method are applied in order, and each writes its text into the row before the
next one is expanded.
-/

namespace Assortment.Template

/-- The name under which the active groups are known. -/
def groupsName : String := "activeGroups"

/-- The active groups as text. -/
def groupsText (groups : List String) : String :=
  ", ".intercalate groups

/-- The texts of the known names, of which a field named like the groups hides the latter. -/
def replacements (row : Row) (groups : List String) : OrderedMap String :=
  row.entries.foldl (fun known entry => known.insert entry.1 entry.2.text)
    (OrderedMap.empty.insert groupsName (groupsText groups))

/--
Whether the placeholder of one name comes before that of another: the one with the longer
encoding, and of two with equally long encodings the one that is smaller as text.
-/
def precedes (left right : String) : Bool :=
  let leftLength := Text.encodedLength (Placeholder.written left)
  let rightLength := Text.encodedLength (Placeholder.written right)
  decide (rightLength < leftLength) ||
    decide (rightLength = leftLength) &&
      !decide (Placeholder.written right < Placeholder.written left)

/-- Put an entry in front of the first one that its placeholder comes before. -/
def rankAmong (entry : String × String) : List (String × String) → List (String × String)
  | [] => [entry]
  | other :: rest =>
    if precedes entry.1 other.1 then
      entry :: other :: rest
    else
      other :: rankAmong entry rest

/-- The entries in the order of their placeholders. -/
def ranked : List (String × String) → List (String × String)
  | [] => []
  | entry :: rest => rankAmong entry (ranked rest)

/-- Replace the placeholders of known names, given in rank order, from left to right. -/
def replace (known : List (String × String)) (text : List Char) : List Char :=
  match _divided : Text.cut '{' text with
  | none => text
  | some (before, after) =>
    before ++
      match known.find? fun entry => (Placeholder.written entry.1).isPrefixOf ('{' :: after) with
      | some (name, replacement) =>
        replacement.toList ++
          replace known (('{' :: after).drop (Placeholder.written name).length)
      | none => '{' :: replace known after
termination_by text.length
decreasing_by
  · have shorter := Text.length_lt_of_cut _divided
    have opened := Placeholder.length_written_pos name
    simp only [List.length_drop, List.length_cons]
    omega
  · exact Text.length_lt_of_cut _divided

/-- The template with its known placeholders replaced. -/
def expand (template : String) (row : Row) (groups : List String) : String :=
  String.ofList (replace (ranked (replacements row groups).entries) template.toList)

/-- Write the expansion of each template, given with its field, into the row in turn. -/
def applyAll (templates : List (String × String)) (groups : List String) (row : Row) : Row :=
  templates.foldl
    (fun written template =>
      written.insert template.1 (.string (expand template.2 written groups)))
    row

end Assortment.Template
