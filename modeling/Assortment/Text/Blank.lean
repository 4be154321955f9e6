/-!
# Blank characters

Two classes of blank characters occur, and they are different sets.  `isBlank` is the Unicode
property White_Space, which decides whether a method name says anything.  `isNumericBlank` is the
set of six ASCII blanks that may surround a number written as text.
-/

namespace Assortment.Text

/-- Membership in the Unicode property White_Space. -/
def isBlank (character : Char) : Bool :=
  let code := character.toNat
  (9 ≤ code && code ≤ 13) || code == 0x20 || code == 0x85 || code == 0xA0 || code == 0x1680 ||
    (0x2000 ≤ code && code ≤ 0x200A) || code == 0x2028 || code == 0x2029 || code == 0x202F ||
    code == 0x205F || code == 0x3000

/-- A text without any character that is not blank. -/
def allBlank (text : String) : Bool :=
  text.toList.all isBlank

/-- Space, tab, line feed, vertical tab, form feed and carriage return. -/
def isNumericBlank (character : Char) : Bool :=
  character == ' ' || (9 ≤ character.toNat && character.toNat ≤ 13)

end Assortment.Text
