import Multicast.Demo.Program
/-!
When a run of the demonstration has shown enough: tests of what its subscribers have received, up to
which `Demo.runUntil` goes on.
-/

namespace Multicast.Demo

/-- Whether so many batches with items have been received. -/
def hasReceived (batches : Nat) (d : Demo) : Bool :=
  decide (batches ≤ (d.consumers.map fun c =>
    (c.received.filter (!·.isPing)).length).foldr (· + ·) 0)

/-- Whether so many subscribers have received an event beyond the given one. -/
def hasPassed (peers sequence : Nat) (d : Demo) : Bool :=
  decide (peers ≤ (d.consumers.filter fun c =>
    c.received.any fun b => b.ids.any fun id => decide (sequence < id)).length)

end Multicast.Demo
