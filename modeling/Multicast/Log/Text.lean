import Multicast.Log
import Multicast.Text.Quoted
/-!
The text of a line of the log: the level, the part of the service that speaks, the message and the
named values.
-/

namespace Multicast

def LogValue.render : LogValue → String
  | .number n => toString n
  | .flag b => toString b
  | .plain s => s
  | .text s => Text.quoted s

namespace LogLine

def body (l : LogLine) : String :=
  " ".intercalate (l.message :: l.fields.map fun (k, v) => k ++ "=" ++ v.render)

def render (l : LogLine) : String := l.level.name ++ " " ++ l.target ++ ": " ++ l.body

end LogLine

end Multicast
