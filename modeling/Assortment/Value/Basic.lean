import Assortment.Binary64.Basic
import Assortment.OrderedMap
import Assortment.Word

/-!
# Values

The data that runs consume and produce: null, truth values, integers, finite floats, text, lists
and objects.  An integer and a float are different values even where they denote the same number.
An object is a list of members in order.  Whoever reads an object looks at it as the map that the
list denotes, `Value.object?`, in which a key that is repeated keeps its first place and its last
value.
-/

namespace Assortment

/-- A piece of data. -/
inductive Value where
  | null
  | bool (flag : Bool)
  | int (number : Int)
  | float (number : Binary64.Finite)
  | string (text : String)
  | array (items : List Value)
  | object (members : List (String × Value))

/-- The values of one variation or of one call, by field. -/
abbrev Row := OrderedMap Value

namespace Value

instance : Inhabited Value := ⟨null⟩

/-- Whether a value is null. -/
def isNull : Value → Bool
  | null => true
  | _ => false

/-- Whether the value is null or the empty text. -/
def isBlank : Value → Bool
  | null => true
  | string text => text.isEmpty
  | _ => false

/-- A list offers its items as candidates, and any other value offers itself. -/
def candidates : Value → List Value
  | array items => items
  | value => [value]

/-- The text of a value that is one. -/
def string? : Value → Option String
  | string text => some text
  | _ => none

def bool? : Value → Option Bool
  | bool flag => some flag
  | _ => none

/-- The integer of an integral value that is not negative. -/
def nat? : Value → Option Nat
  | int (.ofNat number) => some number
  | _ => none

/-- The integer of an integral value that is an unsigned word. -/
def word? : Value → Option UInt64
  | int (.ofNat number) =>
    if number < Word.unsignedBound then some (UInt64.ofNat number) else none
  | _ => none

/-- The items of a list. -/
def array? : Value → Option (List Value)
  | array items => some items
  | _ => none

/-- The members of an object as a map. -/
def object? : Value → Option Row
  | object members => some (.ofList members)
  | _ => none

mutual

/-- Equality of values is decided by comparing them part by part. -/
def decideEq : (left right : Value) → Decidable (left = right)
  | null, null => isTrue rfl
  | bool left, bool right => decidable_of_iff (left = right) (by simp)
  | int left, int right => decidable_of_iff (left = right) (by simp)
  | float left, float right => decidable_of_iff (left = right) (by simp)
  | string left, string right => decidable_of_iff (left = right) (by simp)
  | array left, array right =>
    have := decideEqItems left right
    decidable_of_iff (left = right) (by simp)
  | object left, object right =>
    have := decideEqMembers left right
    decidable_of_iff (left = right) (by simp)
  | null, bool _ | null, int _ | null, float _ | null, string _ | null, array _
  | null, object _ | bool _, null | bool _, int _ | bool _, float _ | bool _, string _
  | bool _, array _ | bool _, object _ | int _, null | int _, bool _ | int _, float _
  | int _, string _ | int _, array _ | int _, object _ | float _, null | float _, bool _
  | float _, int _ | float _, string _ | float _, array _ | float _, object _
  | string _, null | string _, bool _ | string _, int _ | string _, float _
  | string _, array _ | string _, object _ | array _, null | array _, bool _ | array _, int _
  | array _, float _ | array _, string _ | array _, object _ | object _, null
  | object _, bool _ | object _, int _ | object _, float _ | object _, string _
  | object _, array _ => isFalse nofun

/-- Lists are compared item by item. -/
def decideEqItems : (left right : List Value) → Decidable (left = right)
  | [], [] => isTrue rfl
  | [], _ :: _ => isFalse nofun
  | _ :: _, [] => isFalse nofun
  | left :: lefts, right :: rights =>
    have := decideEq left right
    have := decideEqItems lefts rights
    decidable_of_iff (left = right ∧ lefts = rights) (by simp)

def decideEqMembers : (left right : List (String × Value)) → Decidable (left = right)
  | [], [] => isTrue rfl
  | [], _ :: _ => isFalse nofun
  | _ :: _, [] => isFalse nofun
  | (leftKey, left) :: lefts, (rightKey, right) :: rights =>
    have := decideEq left right
    have := decideEqMembers lefts rights
    decidable_of_iff ((leftKey = rightKey ∧ left = right) ∧ lefts = rights) (by simp)

end

instance : DecidableEq Value := decideEq

end Value

end Assortment
