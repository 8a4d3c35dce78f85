/-!
A signal that wakes one sleeper. A wake-up that comes while nobody sleeps is kept for the next one
who wants to sleep; more than one is not kept.
-/

namespace Multicast

/-- The state of a signal with one possible sleeper. -/
inductive Signal
  | clear
  | stored
  | awaited
  /-- The sleeper has been woken and has not gone on yet; `again` says whether another wake-up is
  kept besides. -/
  | given (again : Bool)
  deriving DecidableEq, Repr, Inhabited

namespace Signal

def notify : Signal → Signal
  | .clear | .stored => .stored
  | .awaited => .given false
  | .given _ => .given true

/-- Goes to sleep; a wake-up that was kept ends the sleep at once. -/
def await : Signal → Signal
  | .stored => .given false
  | .clear | .awaited => .awaited
  | .given again => .given again

def isGiven : Signal → Bool
  | .given _ => true
  | _ => false

def resume : Signal → Signal
  | .given true => .stored
  | .given false | .awaited => .clear
  | s => s

end Signal

end Multicast
