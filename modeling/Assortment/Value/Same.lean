import Assortment.Value.Basic

/-!
# Sameness of values

Two values are the same when they have the same shape and the same content.  Floats are compared
as numbers, so the two zeros are the same, and objects are compared by what they hold under each
key, so the order of their members does not matter.  An integer is never the same as a float.
-/

namespace Assortment.Value

mutual

/-- Whether two values have the same content. -/
def same : Value → Value → Bool
  | null, null => true
  | bool left, bool right => left == right
  | int left, int right => left == right
  | float left, float right => left.units == right.units
  | string left, string right => left == right
  | array left, array right => sameItems left right
  | object left, object right => left.length == right.length && sameMembers left right
  | _, _ => false

def sameItems : List Value → List Value → Bool
  | [], [] => true
  | left :: lefts, right :: rights => same left right && sameItems lefts rights
  | _, _ => false

/-- Whether each member has a counterpart of the same content under its key. -/
def sameMembers : List (String × Value) → List (String × Value) → Bool
  | [], _ => true
  | (key, value) :: rest, others =>
    (match Entries.get? key others with
      | some other => same value other
      | none => false) &&
      sameMembers rest others

end

/-- Whether two rows hold the same content under the same fields, in any order. -/
def sameRow (left right : Row) : Bool :=
  same (object left.entries) (object right.entries)

end Assortment.Value
