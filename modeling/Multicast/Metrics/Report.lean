import Multicast.Metrics
/-!
What has been counted, as a recorder shows it. A counter is shown as a word of 64 bits, the number
of subscribers as a text, and the lengths of the writes by their bits or by their number.
-/

namespace Multicast.Metrics

def counterReport (m : Metrics) : List (String × Nat) :=
  m.counters.map fun (c, n) => (c.key, n % Nat.pow 2 64)

def gaugeReport (m : Metrics) : List (String × String) :=
  match m.sessions with
  | some n => [(sessionsKey, Binary64.wholeText n)]
  | none => []

/-- The lengths of the writes on each path on which there were any, in order, as bits. -/
def writeReport (m : Metrics) : List (String × List String) :=
  DeliveryKind.all.filterMap fun p =>
    match (m.writes.filter fun w => decide (w.1 = p)).reverse with
    | [] => none
    | ws => some (writesKey p, ws.map fun w => (seconds w.2).bitsText)

/-- The number of writes on each path on which there were any. -/
def writeCountReport (m : Metrics) : List (String × Nat) :=
  DeliveryKind.all.filterMap fun p =>
    if m.writeCount p = 0 then none else some (writesKey p, m.writeCount p)

end Multicast.Metrics
