import Multicast.Metrics
import Multicast.Registry.Config
import Multicast.Session
/-!
What happens in a registry. The history of a registry is a list of these events; its log and the
records of what was called and written are read off them.
-/

namespace Multicast

/-- The two loops that keep a registry in order. -/
inductive LoopKind
  | sweep
  | ping
  deriving DecidableEq, Repr

/-- How a delivery ended. -/
inductive DeliveryOutcome
  | written
  | stale
  | failed
  deriving DecidableEq, Repr

def DeliveryOutcome.name : DeliveryOutcome → String
  | .written => "Written"
  | .stale => "Stale"
  | .failed => "Failed"

/-- Who a subscriber is, as far as events tell. -/
structure SessionName where
  id : SessionId
  peer : String
  deriving DecidableEq, Repr

/-- What happens in a registry. -/
inductive Event
  /-- A period was shorter than allowed and has been raised. -/
  | periodRaised (loop : LoopKind) (asked used : Duration)
  | started (config : Config)
  | beforeRegistered (peer : String) (keys : List String)
  | registered (who : SessionName) (keys : List String) (count : Nat)
  | activated (who : SessionName) (pending : Nat)
  | enqueued (who : SessionName) (batch : Batch Nat)
  /-- A queue was closed with these batches pending. -/
  | discarded (who : SessionName) (batches : List (Batch Nat))
  | staleSkipped (who : SessionName) (kind : DeliveryKind) (batch : Batch Nat)
    (position : Option Nat)
  | writeBegun (who : SessionName) (kind : DeliveryKind) (keepAlive : Bool) (frame : Batch Nat)
  | writeSucceeded (who : SessionName) (kind : DeliveryKind) (keepAlive : Bool) (frame : Batch Nat)
  | writeFailed (who : SessionName) (kind : DeliveryKind) (error : SinkError)
  /-- A write has crashed, and with it the worker or the call that made it. -/
  | writeCrashed (who : SessionName) (kind : DeliveryKind) (keepAlive : Bool) (frame : Batch Nat)
  | deliveryFinished (who : SessionName) (outcome : DeliveryOutcome)
  | removed (who : SessionName) (reason : RemovalReason) (remaining : Nat)
  | afterRemoved (who : SessionName) (stage : Stage) (writes : Nat) (position : Option Nat)
  | afterReturned (who : SessionName) (ok : Bool)
  /-- The callback after a removal failed while the registry runs. -/
  | hookFailed (who : SessionName) (error : HookError)
  /-- The callback after a removal failed while the registry stops. -/
  | farewellFailed (who : SessionName) (error : HookError)
  /-- A task that takes leave of a subscriber while the registry stops has crashed. -/
  | farewellCrashed
  | workerStarted (who : SessionName)
  | workerStopped (who : SessionName)
  /-- Somebody who waited for the end of a worker learns that it has crashed. -/
  | workerLost (who : SessionName)
  | swept (count : Nat)
  | pingPassFinished (count : Nat)
  | loopCancelled (loop : LoopKind)
  | stopped (count : Nat)
  | stopTimedOut (count outstanding seconds : Nat)
  /-- The registry was dropped without having been stopped. -/
  | dropped (count : Nat)
  deriving Repr

end Multicast
