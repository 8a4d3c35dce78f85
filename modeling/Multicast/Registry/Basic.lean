import Multicast.Registry.Event
/-!
The state of a registry: its subscribers, the set of those that are registered now, the calls and
loops under way, what has been counted, and the history of events.

A call or loop is a value of `Call` that says where it stands; the number of a call is its place in
the list. The steps themselves are in the modules that follow; here are the pieces of state that
they change, one small function for each.
-/

namespace Multicast

/-- Callbacks around the life of a subscriber. -/
structure Hooks where
  /-- What is done before a subscriber is registered. -/
  before : Subscription → HookPlan := fun _ => .succeed
  /-- What is done after a subscriber was removed. -/
  after : Session → HookPlan := fun _ => .succeed
  /-- The batch that a subscriber gets instead of another. -/
  process : Session → Batch Nat → Batch Nat := fun _ b => b

/-- Why an operation on a registry was refused. -/
inductive RegistryError
  /-- A live batch must hold exactly one item. -/
  | invalidBatch (size : Nat)
  | hook (e : HookError)
  | stopped
  deriving DecidableEq, Repr

def RegistryError.message : RegistryError → String
  | .invalidBatch size => "live batch must contain exactly one item, got " ++ toString size
  | .hook e => e.message
  | .stopped => "registry stopped"

/-- What a call returns. -/
inductive Answer
  | nothing
  | flag (b : Bool)
  | count (n : Nat)
  | subscribed (s : SessionId)
  /-- The subscriber that was waited for has been removed. -/
  | removed
  deriving DecidableEq, Repr

/-- A delivery past the queue of a subscriber. Without a delivery under way it stands in line. -/
structure Direct where
  session : SessionId
  batch : Batch Nat
  kind : DeliveryKind
  delivery : Option Delivery := none
  deriving DecidableEq, Repr

/-- A batch on its way to every subscriber, one after the other. -/
structure Backfill where
  batch : Batch Nat
  current : Direct
  rest : List SessionId
  attempted : Nat
  deriving DecidableEq, Repr

/-- A pass that removes cancelled subscribers, at the callback of one of them. -/
structure SweepPass where
  session : SessionId
  hook : HookRun
  rest : List SessionId
  removed : Nat
  deriving DecidableEq, Repr

/-- One ping of a round. -/
inductive PingPoint
  | waiting (d : Direct)
  | answered (reached : Bool)
  deriving DecidableEq, Repr

/-- A round of pings, one for each subscriber, all at once. -/
structure PingPass where
  pings : List PingPoint
  deriving DecidableEq, Repr

/-- Where taking leave of a subscriber stands: its worker is to come to its end, and then the
callback runs. -/
inductive Farewell
  | fresh
  | joining
  | saying (hook : HookRun)
  deriving DecidableEq, Repr

/-- A call to stop the registry, which waits for the farewells with the given numbers. -/
structure StopPoint where
  count : Nat
  deadline : Nat
  waiting : List Nat
  deriving DecidableEq, Repr

/-- A loop: when its next pass is due, and the pass under way. Its times are in nanoseconds. -/
structure Loop (π : Type) where
  period : Nat
  next : Nat := 0
  pass : Option π := none
  deriving DecidableEq, Repr

/-- Where a call or a loop stands. -/
inductive Call
  | subscribing (request : Subscription) (hook : HookRun)
  | backfilling (b : Backfill)
  | sending (d : Direct)
  | unsubscribing (s : SessionId) (f : Farewell)
  | sweeping (p : SweepPass)
  | pinging (p : PingPass)
  | stopping (p : StopPoint)
  | awaitingRemoval (s : SessionId)
  | farewell (s : SessionId) (f : Farewell)
  | sweepLoop (l : Loop SweepPass)
  | pingLoop (l : Loop PingPass)
  | returned (r : Except RegistryError Answer)
  | crashed

/-- A registry with its subscribers, calls and loops. -/
structure Registry where
  config : Config
  hooks : Hooks
  now : Nat := 0
  /-- Every subscriber that was ever registered, in order. -/
  sessions : List Session := []
  /-- The subscribers that are registered now, in order. -/
  members : List SessionId := []
  /-- The names of the cancellation signals that have been given. -/
  cancelledTokens : List String := []
  /-- Whether the registry takes no more subscribers and its loops are to end. -/
  stopped : Bool := false
  metrics : Metrics := {}
  calls : List Call := []
  history : List Event := []

namespace Registry

def note (r : Registry) (e : Event) : Registry := { r with history := e :: r.history }

def count (r : Registry) (f : Metrics → Metrics) : Registry := { r with metrics := f r.metrics }

/-- The clock in nanoseconds; it goes by milliseconds. -/
def nanos (r : Registry) : Nat := r.now * 1000000

def session? (r : Registry) (s : SessionId) : Option Session := r.sessions[s]?

def update (r : Registry) (s : SessionId) (f : Session → Session) : Registry :=
  { r with sessions := r.sessions.modify s f }

def nameOf (r : Registry) (s : SessionId) : SessionName :=
  ⟨s, ((r.session? s).map (·.peer)).getD ""⟩

/-- Adds a call that stands at the given point. -/
def addCall (r : Registry) (c : Call) : Registry := { r with calls := r.calls ++ [c] }

def setCall (r : Registry) (i : Nat) (c : Call) : Registry := { r with calls := r.calls.set i c }

/-- Whether the connection of the subscriber has been cancelled. -/
def isCancelled (r : Registry) (s : SessionId) : Bool :=
  match (r.session? s).bind (·.token) with
  | some t => r.cancelledTokens.contains t
  | none => false

def cancel (r : Registry) (token : String) : Registry :=
  { r with cancelledTokens := token :: r.cancelledTokens }

def updateQueue (r : Registry) (s : SessionId) (f : Queue Nat → Queue Nat) : Registry :=
  r.update s fun x => { x with queue := f x.queue }

/-- Gives the gate of a subscriber back, or gives up waiting for it. -/
def leave (r : Registry) (s : SessionId) (p : Party) : Registry := r.updateQueue s (·.leave p)

/-- Takes leave of a subscriber that is not removed yet. -/
def markRemoved (r : Registry) (s : SessionId) : Registry × Bool :=
  match r.session? s with
  | none => (r, false)
  | some x =>
    match x.stage with
    -- whoever comes second finds nothing left to do
    | .removed => (r, false)
    | .registered | .active =>
      ((r.update s Session.remove).note (.discarded (r.nameOf s) x.queue.heap.toList), true)

/-- Removes a subscriber from the set and counts the reason. The answer says whether it was still
there to be removed. -/
def detach (r : Registry) (s : SessionId) (reason : RemovalReason) : Registry × Bool :=
  match r.markRemoved s with
  | (r, false) => (r, false)
  | (r, true) =>
    let members := r.members.filter (· != s)
    let r := { r with members := members }
    -- the set, the gauge and the counter change together
    let r := r.count fun m => (m.setSessions members.length).sessionsRemoved reason 1
    (r.note (.removed (r.nameOf s) reason members.length), true)

/-- Calls the callback after the removal of a subscriber. -/
def callAfter (r : Registry) (s : SessionId) : Registry × HookRun :=
  match r.session? s with
  | none => (r, ⟨r.now, .succeed⟩)
  | some x =>
    (r.note (.afterRemoved (r.nameOf s) x.stage x.writes x.cursor.position),
      ⟨r.now, r.hooks.after x⟩)

/-- Notes that the callback after a removal has returned, and its failure if it failed. -/
def noteReturn (r : Registry) (s : SessionId) (failure : SessionName → HookError → Event) :
    Except HookError Unit → Registry
  | .ok () => r.note (.afterReturned (r.nameOf s) true)
  | .error e => (r.note (.afterReturned (r.nameOf s) false)).note (failure (r.nameOf s) e)

/-- A registry with the given behaviour and callbacks. Its loops are due at once. -/
def new (config : Config) (hooks : Hooks) : Registry :=
  let used := config.clamped
  let r : Registry := {
    config := used
    hooks := hooks
    calls := .sweepLoop { period := used.sweepInterval.inNanos } ::
      (used.pingInterval.map fun p => Call.pingLoop { period := p.inNanos }).toList }
  -- a period that is too short is reported as it was asked for
  let raised (loop : LoopKind) (d : Duration) (r : Registry) : Registry :=
    if Config.tooShort d then r.note (.periodRaised loop d Config.shortestPeriod) else r
  let r := raised .sweep config.sweepInterval r
  let r := match config.pingInterval with
    | some p => raised .ping p r
    | none => r
  r.note (.started used)

end Registry

end Multicast
