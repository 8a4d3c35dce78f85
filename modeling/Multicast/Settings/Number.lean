import Multicast.Text.Blank
/-!
Numbers in settings: an optional plus sign and decimal digits, with blanks around them. A number
that does not fit its width is no number.
-/

namespace Multicast.Settings

/-- The number that a list of decimal digits denotes, the first digit being the highest. -/
def digitsValue (cs : List Char) : Nat := cs.foldl (fun n c => 10 * n + (c.toNat - '0'.toNat)) 0

def dropPlus : List Char → List Char
  | '+' :: cs => cs
  | cs => cs

/-- The number below `2 ^ width` that the characters spell. -/
def numberOfChars? (width : Nat) (cs : List Char) : Option Nat :=
  let ds := dropPlus cs
  if !ds.isEmpty && ds.all Char.isDigit && decide (digitsValue ds < Nat.pow 2 width) then
    some (digitsValue ds)
  else none

/-- The number below `2 ^ width` that the text spells, blanks at its ends aside. -/
def number? (width : Nat) (s : String) : Option Nat :=
  numberOfChars? width (Text.trimChars s.toList)

end Multicast.Settings
