import Multicast.Filter
import Multicast.Registry.Basic
/-!
The subscribers of the demonstration and what there is for them to see. Every event belongs to one
of three tenants, by its sequence number; every subscriber belongs to one of them, by its place. The
first events are history when the subscribers come, and each subscriber is sent those of its tenant.
-/

namespace Multicast.Demo

def tenants : List String := ["acme", "globex", "initech"]

/-- The tenant of the event, or of the subscriber, with the given number. -/
def tenantOf (n : Nat) : String := tenants.getD (n % tenants.length) ""

def event (sequence : Nat) : Item Nat := ⟨sequence, tenantOf sequence⟩

/-- The number of events before the first subscriber comes. -/
def historyLength : Nat := 30

def pastEvents : List (Item Nat) := (List.range historyLength).map fun n => event (n + 1)

/-- The history of the tenant of the subscriber. -/
def backfill (i : Nat) : Batch Nat := ⟨pastEvents.filter (Filter.tagged (tenantOf i))⟩

/-- How many batches wait for a subscriber at most. -/
def channelCapacity : Nat := 256

def peer (i : Nat) : String := "demo-" ++ toString i

def shutdownToken : String := "shutdown"

def subscription (i : Nat) : Subscription where
  peer := peer i
  keys := [tenantOf i]
  token := some shutdownToken
  filter := Filter.tagged (tenantOf i)
  sink := .channel (.ofCapacity channelCapacity)

/-- A subscriber without a tenant is turned away. -/
def hooks : Hooks where
  before request :=
    if request.keys.isEmpty then .fail (.rejected (request.peer ++ " has no tenant key"))
    else .succeed

/-- How far back the older event lies that is published again with every tenth one: two turns of
the tenants. -/
def lookBack : Nat := tenants.length * 2

/-- The events that are published when the sequence has come to the given number. -/
def published (sequence : Nat) : List (Item Nat) :=
  if sequence % 10 = 0 then [event sequence, event (sequence - lookBack)] else [event sequence]

end Multicast.Demo
