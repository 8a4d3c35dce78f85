import Multicast.Text.CaseTable
/-!
Lower-casing by the rules of the character standard. Every character has a lower-case form of its
own, with two exceptions: the capital I with a dot above becomes two characters, and the capital
sigma takes its final form at the end of a word.
-/

namespace Multicast.Text

def CaseRun.holds (r : CaseRun) (n : Nat) : Bool :=
  decide (r.first ≤ n) && decide (n ≤ r.last) && (n - r.first) % r.step == 0

/-- The lower-case form of a character that has one of its own. -/
def lowerChar (c : Char) : Char :=
  match lowerRuns.find? (·.holds c.toNat) with
  | some r => Char.ofNat (c.toNat + r.shift).toNat
  | none => c

/-- Whether the first character that is not passed over has case. -/
def meetsCased (cs : List Char) : Bool :=
  match cs.dropWhile (inRanges caseIgnorableRanges) with
  | c :: _ => inRanges casedRanges c
  | [] => false

/-- Lower-cases `rest`, which follows the reversed text `before`. A capital sigma ends a word if a
cased character comes before it and none after it. -/
def lowerAfter (before : List Char) : List Char → List Char
  | [] => []
  | c :: rest =>
    (if c.toNat = 0x130 then ['i', Char.ofNat 0x307]
     else if c.toNat = 0x3a3 then
       [Char.ofNat (if meetsCased before && !meetsCased rest then 0x3c2 else 0x3c3)]
     else [lowerChar c]) ++ lowerAfter (c :: before) rest

def lowerCase (s : String) : String := String.ofList (lowerAfter [] s.toList)

/-- The text with its letters A to Z in lower case. -/
def lowerCaseAscii (s : String) : String := String.ofList (s.toList.map Char.toLower)

end Multicast.Text
