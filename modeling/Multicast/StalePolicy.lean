import Multicast.Text.LowerCase
/-!
When data counts as delivered already, and how such a policy is named in a setting.
-/

namespace Multicast

/-- When an id counts as delivered already. -/
inductive StalePolicy
  | older
  | notAfter
  deriving DecidableEq, Repr, Inhabited

/-- A text that names no policy, in lower case. -/
structure UnknownPolicy where
  text : String
  deriving DecidableEq, Repr

def UnknownPolicy.message (e : UnknownPolicy) : String := "unknown stale policy: " ++ e.text

namespace StalePolicy

def name : StalePolicy → String
  | .older => "older"
  | .notAfter => "not-after"

def longName : StalePolicy → String
  | .older => "older-than-cursor"
  | .notAfter => "not-after-cursor"

def all : List StalePolicy := [.older, .notAfter]

/-- The policy with the given name, short or long, in any case. Blanks are not removed. -/
def ofText (s : String) : Except UnknownPolicy StalePolicy :=
  let lower := Text.lowerCase s
  match all.find? fun p => lower == p.name || lower == p.longName with
  | some p => .ok p
  | none => .error ⟨lower⟩

end StalePolicy

end Multicast
