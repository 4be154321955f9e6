/-!
# Placeholders

A template is text in which a name between braces stands for a value.  `Placeholder.names` lists
the names that occur: a name is a stretch of characters other than braces, at least one of them,
with an opening brace right before it and a closing brace right after it.  The scan keeps the
characters since the last opening brace and gives a name when a closing brace ends them.
-/

namespace Assortment.Placeholder

/-- A name as it is written in a template. -/
def written (name : String) : List Char :=
  '{' :: name.toList ++ ['}']

theorem length_written_pos
    (name : String) :
    0 < (written name).length := by
  simp [written]

/--
The names that remain to be found, given the characters since the last opening brace that is still
open, the latest first.
-/
def scan : Option (List Char) → List Char → List String
  | _, [] => []
  | pending, character :: rest =>
    if character = '{' then
      scan (some []) rest
    else if character = '}' then
      match pending with
      | some (last :: before) => String.ofList (last :: before).reverse :: scan none rest
      | _ => scan none rest
    else
      scan (pending.map (character :: ·)) rest

/-- The names that occur between braces in a template, in order. -/
def names (template : String) : List String :=
  scan none template.toList

example : names "\x7ba\x7d \x7b\x7d \x7b\x7bb\x7d" = ["a", "b"] := by decide +kernel

end Assortment.Placeholder
