import Multicast.Text.PrintTable
/-!
A text in double quotes, as diagnostics show it: quotes, backslashes and line ends are escaped, and
a character that would not show is written by its code.
-/

namespace Multicast.Text

/-- The digits of a number in base sixteen, in lower case. -/
def hex (n : Nat) : String := String.ofList (Nat.toDigits 16 n)

/-- How one character is written between double quotes. -/
def quotedChar (c : Char) : String :=
  if c = '"' then "\\\""
  else if c = '\\' then "\\\\"
  else if c = '\n' then "\\n"
  else if c = '\r' then "\\r"
  else if c = '\t' then "\\t"
  else if c.toNat = 0 then "\\0"
  else if inRanges extenderRanges c || inRanges unprintableRanges c then
    "\\u\x7b" ++ hex c.toNat ++ "\x7d"
  else c.toString

def quoted (s : String) : String := "\"" ++ String.join (s.toList.map quotedChar) ++ "\""

def bracketed (items : List String) : String := "[" ++ ", ".intercalate items ++ "]"

/-- An optional value, by the text of what it holds. -/
def optional : Option String → String
  | none => "None"
  | some t => "Some(" ++ t ++ ")"

end Multicast.Text
