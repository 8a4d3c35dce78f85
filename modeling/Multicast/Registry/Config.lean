import Multicast.Duration
import Multicast.Heap
import Multicast.StalePolicy
/-!
How a registry behaves: the periods of its maintenance loops, how long it waits when it stops, how
much room a new queue has, and which data it holds for stale.
-/

namespace Multicast

/-- The behaviour of a registry. -/
structure Config where
  /-- The period at which cancelled subscribers are swept out. -/
  sweepInterval : Duration := .ofSeconds 10
  /-- The period of the keep-alive pings; without one there are none. -/
  pingInterval : Option Duration := none
  /-- How long stopping waits for the last hooks. -/
  removalTimeout : Duration := .ofSeconds 60
  queueCapacity : Nat := Heap.defaultCapacity
  stalePolicy : StalePolicy := .older
  deriving DecidableEq, Repr, Inhabited

namespace Config

/-- The shortest period at which a maintenance loop runs. -/
def shortestPeriod : Duration := .ofMillis 10

/-- Whether a loop would run more often than is allowed. -/
def tooShort (d : Duration) : Bool := decide (d.millis < shortestPeriod.millis)

/-- The period itself, or the shortest one allowed. -/
def raise (d : Duration) : Duration := if tooShort d then shortestPeriod else d

/-- The behaviour with both periods raised to the shortest one allowed. -/
def clamped (c : Config) : Config :=
  { c with sweepInterval := raise c.sweepInterval, pingInterval := c.pingInterval.map raise }

end Config

end Multicast
