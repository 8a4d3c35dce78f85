import Multicast.Binary64
import Multicast.DeliveryKind
import Multicast.Duration
/-!
What is counted while a registry runs. Counters count events, a gauge holds the number of
subscribers, and for each write its length of time is kept.

A counter exists from the first time something is added to it, be it zero. `Metrics.value` is the
view through which counters are compared.
-/

namespace Multicast

/-- Why a subscriber was removed. -/
inductive RemovalReason
  | sinkFailure
  | cancelled
  | unsubscribed
  | shutdown
  deriving DecidableEq, Repr, Inhabited

namespace RemovalReason

def name : RemovalReason → String
  | .sinkFailure => "sink_failure"
  | .cancelled => "cancelled"
  | .unsubscribed => "unsubscribed"
  | .shutdown => "shutdown"

def all : List RemovalReason := [.sinkFailure, .cancelled, .unsubscribed, .shutdown]

end RemovalReason

/-- What can be counted. -/
inductive Counter
  | published (path : DeliveryKind)
  | routed (path : DeliveryKind)
  | pingPasses
  | pingsSent
  | delivered (path : DeliveryKind)
  | staleSkips (path : DeliveryKind)
  | sinkFailures (path : DeliveryKind)
  | removed (reason : RemovalReason)
  deriving DecidableEq, Repr

/-- The name under which a quantity is reported: what it is, and which path or reason it is for. -/
def labelled (name label value : String) : String :=
  name ++ "\x7b" ++ label ++ "=" ++ value ++ "\x7d"

/-- The name under which a counter is reported. -/
def Counter.key : Counter → String
  | .published p => labelled "stream_fanout_batches_published_total" "path" p.name
  | .routed p => labelled "stream_fanout_batches_routed_total" "path" p.name
  | .pingPasses => "stream_fanout_ping_passes_total"
  | .pingsSent => "stream_fanout_pings_sent_total"
  | .delivered p => labelled "stream_fanout_batches_delivered_total" "path" p.name
  | .staleSkips p => labelled "stream_fanout_stale_skips_total" "path" p.name
  | .sinkFailures p => labelled "stream_fanout_sink_failures_total" "path" p.name
  | .removed r => labelled "stream_fanout_sessions_removed_total" "reason" r.name

/-- What has been counted. -/
structure Metrics where
  counters : List (Counter × Nat) := []
  /-- The number of subscribers, once it has been set. -/
  sessions : Option Nat := none
  /-- The lengths of the writes, the latest first. -/
  writes : List (DeliveryKind × Duration) := []
  deriving Repr, Inhabited

namespace Metrics

/-- Adds `n` to the counter `c` of a list of counters. -/
def bump (c : Counter) (n : Nat) : List (Counter × Nat) → List (Counter × Nat)
  | [] => [(c, n)]
  | (d, m) :: rest => if d = c then (d, m + n) :: rest else (d, m) :: bump c n rest

def add (m : Metrics) (c : Counter) (n : Nat) : Metrics :=
  { m with counters := bump c n m.counters }

/-- The count of a counter in a list, if the counter exists. -/
def find? (c : Counter) : List (Counter × Nat) → Option Nat
  | [] => none
  | (d, m) :: rest => if d = c then some m else find? c rest

/-- What a counter has counted; one that does not exist has counted nothing. -/
def value (m : Metrics) (c : Counter) : Nat := (find? c m.counters).getD 0

/-- The number of writes on a path whose length has been kept. -/
def writeCount (m : Metrics) (p : DeliveryKind) : Nat :=
  (m.writes.filter fun w => decide (w.1 = p)).length

def batchPublished (m : Metrics) (p : DeliveryKind) (routed : Nat) : Metrics :=
  (m.add (.published p) 1).add (.routed p) routed

def pingPass (m : Metrics) (sent : Nat) : Metrics := (m.add .pingPasses 1).add .pingsSent sent

def batchDelivered (m : Metrics) (p : DeliveryKind) : Metrics := m.add (.delivered p) 1

def staleSkip (m : Metrics) (p : DeliveryKind) : Metrics := m.add (.staleSkips p) 1

def sinkFailure (m : Metrics) (p : DeliveryKind) : Metrics := m.add (.sinkFailures p) 1

def setSessions (m : Metrics) (n : Nat) : Metrics := { m with sessions := some n }

def sessionsRemoved (m : Metrics) (r : RemovalReason) (n : Nat) : Metrics := m.add (.removed r) n

def writeTook (m : Metrics) (p : DeliveryKind) (d : Duration) : Metrics :=
  { m with writes := (p, d) :: m.writes }

theorem find?_bump (c d : Counter) (n : Nat) (l : List (Counter × Nat)) :
    find? d (bump c n l) = if c = d then some ((find? c l).getD 0 + n) else find? d l := by
  induction l with
  | nil => simp [bump, find?]
  | cons e rest ih =>
    obtain ⟨x, m⟩ := e
    by_cases hx : x = c
    · subst hx
      by_cases h : x = d <;> simp [bump, find?, h]
    · by_cases h : c = d
      · subst h
        simp [bump, find?, hx, ih]
      · simp [bump, find?, hx, ih, h]

/-- Adding to a counter raises it and leaves the others. -/
theorem value_add (m : Metrics) (c d : Counter) (n : Nat) :
    (m.add c n).value d = if c = d then m.value c + n else m.value d := by
  unfold value add
  rw [find?_bump]
  split <;> simp

/-! ### How it is reported -/

def seconds (d : Duration) : Binary64 :=
  (Binary64.ofNat d.seconds).add ((Binary64.ofNat d.nanos).div (.ofNat 1000000000))

/-- The name under which the lengths of the writes on a path are reported. -/
def writesKey (p : DeliveryKind) : String :=
  labelled "stream_fanout_sink_write_seconds" "path" p.name

/-- The name under which the number of subscribers is reported. -/
def sessionsKey : String := "stream_fanout_sessions"

end Metrics

end Multicast
