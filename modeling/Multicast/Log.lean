/-!
Lines of the log: a level, the part of the service that speaks, a message and named values.
-/

namespace Multicast

/-- How grave or how detailed a line is, the gravest first. -/
inductive LogLevel
  | error
  | warn
  | info
  | debug
  | trace
  deriving DecidableEq, Repr, Inhabited

namespace LogLevel

/-- The level in capitals, as a line begins. -/
def name : LogLevel → String
  | .error => "ERROR"
  | .warn => "WARN"
  | .info => "INFO"
  | .debug => "DEBUG"
  | .trace => "TRACE"

/-- The place of the level in the order of detail, from 1 to 5. -/
def rank : LogLevel → Nat
  | .error => 1
  | .warn => 2
  | .info => 3
  | .debug => 4
  | .trace => 5

def all : List LogLevel := [.error, .warn, .info, .debug, .trace]

end LogLevel

/-- A value in a line. -/
inductive LogValue
  | number (n : Nat)
  | flag (b : Bool)
  /-- A text that is shown as it is. -/
  | plain (s : String)
  | text (s : String)
  deriving DecidableEq, Repr

/-- A line of the log. -/
structure LogLine where
  level : LogLevel
  target : String
  message : String
  fields : List (String × LogValue) := []
  deriving DecidableEq, Repr

end Multicast
