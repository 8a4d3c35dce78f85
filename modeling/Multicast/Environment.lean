/-!
The variables of the environment. A variable holds bytes; only bytes that spell a text can be read,
and any other variable counts as unset.
-/

namespace Multicast

/-- Variables with what they hold; the first entry of a name counts. -/
structure Environment where
  entries : List (String × ByteArray) := []

namespace Environment

/-- The environment in which the variables hold the given texts. -/
def ofTexts (vars : List (String × String)) : Environment :=
  ⟨vars.map fun (k, v) => (k, v.toUTF8)⟩

def text? (env : Environment) (key : String) : Option String :=
  (env.entries.lookup key).bind String.fromUTF8?

/-- Lets a variable hold a text, unless it holds one already. -/
def setDefault (env : Environment) (key value : String) : Environment :=
  match env.text? key with
  | some _ => env
  | none => ⟨(key, value.toUTF8) :: env.entries⟩

end Environment

end Multicast
