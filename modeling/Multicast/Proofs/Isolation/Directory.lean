import Multicast.Proofs.Registry.Standing

/-! A registry whose subscribers have names, and the moves that are made with it. A move is made for
one name, or it is one that everybody may notice: a live batch, the end of a connection, a sweep, or
time that passes. A worker and a call go on by moves of their own, so that a list of moves is any
interleaving of them.

Nothing is done around the life of a subscriber, so that a registration and a sweep do not wait:
each of them comes to its end in one move. -/

namespace Multicast

/-- Those who are about to send to a sink. -/
def Sink.senders : Sink → List Party
  | .scripted _ => []
  | .channel c => c.senders

/-- A request to be registered, with a sink that nobody is about to send to yet. -/
structure NewSubscription extends Subscription where
  unused : sink.senders = []

/-- What is done for one subscriber. -/
inductive Deed
  | activate
  | sendHistorical (b : Batch Nat)
  | unsubscribe
  /-- Its worker goes on. -/
  | work
  /-- The call that was made for it as number `k` goes on. -/
  | resume (k : Nat)
  /-- A write to it that is held is let go on. -/
  | release (o : WriteOutcome)
  /-- Its receiver takes a batch. -/
  | receive
  | dropReceiver

/-- What can happen to a registry whose subscribers have names. -/
inductive Move
  | subscribe (name : String) (request : NewSubscription)
  | act (name : String) (deed : Deed)
  | publishLive (b : Batch Nat)
  | cancel (token : String)
  | sweep
  /-- The loop begins a sweep if it is due. -/
  | sweepDue
  | elapse (ms : Nat)

/-- What belongs to a name: a subscriber, and the calls that were made for it, in order. -/
structure Entry where
  session : SessionId
  calls : List Nat := []

/-- A registry whose subscribers have names. -/
structure Directory where
  registry : Registry
  lookup? : String → Option Entry := fun _ => none

namespace Registry

/-- A call that sweeps and goes on until it returns: once for each subscriber that it removes. -/
def sweepActions (r : Registry) : List Action :=
  .sweep :: List.replicate (r.members.filter r.isCancelled).length (.run (.call r.calls.length))

/-- The loop that sweeps goes on until its pass is over. -/
def sweepDueActions (r : Registry) : List Action :=
  .run (.call 0) :: List.replicate (r.members.filter r.isCancelled).length (.run (.call 0))

end Registry

/-- Whether the deed is a call that may have to wait. -/
def Deed.isCall : Deed → Bool
  | .sendHistorical _ | .unsubscribe => true
  | _ => false

def Entry.actions (e : Entry) : Deed → List Action
  | .activate => [.activate e.session]
  | .sendHistorical b => [.sendHistorical e.session b]
  | .unsubscribe => [.unsubscribe e.session]
  | .work => [.run (.worker e.session)]
  | .resume k => ((e.calls[k]?).map fun i => Action.run (.call i)).toList
  | .release o => [.release e.session o]
  | .receive => [.receive e.session]
  | .dropReceiver => [.dropReceiver e.session]

/-- What belongs to the name after a deed: a call that is made is kept. -/
def Entry.after (e : Entry) (r : Registry) (deed : Deed) : Entry :=
  if deed.isCall then { e with calls := e.calls ++ [r.calls.length] } else e

namespace Directory

def withRegistry (d : Directory) (r : Registry) : Directory := { d with registry := r }

def setEntry (d : Directory) (name : String) (e : Option Entry) : Directory :=
  { d with lookup? := Function.update d.lookup? name e }

/-- Registers a subscriber under a name; a name that is taken is refused. -/
def subscribe (d : Directory) (name : String) (request : Subscription) : Directory :=
  match d.lookup? name with
  | some _ => d
  | none =>
    let i := d.registry.calls.length
    let r := d.registry.run [.subscribe request, .run (.call i)]
    (d.withRegistry r).setEntry name
      (((r.calls[i]?).bind Call.subscribed?).map fun s => { session := s })

/-- Does a deed for a name, if there is a subscriber of that name. -/
def act (d : Directory) (name : String) (deed : Deed) : Directory :=
  match d.lookup? name with
  | none => d
  | some e =>
    (d.withRegistry (d.registry.run (e.actions deed))).setEntry name (e.after d.registry deed)

def perform (d : Directory) : Move → Directory
  | .subscribe name request => d.subscribe name request.toSubscription
  | .act name deed => d.act name deed
  | .publishLive b => d.withRegistry (d.registry.apply (.publishLive b))
  | .cancel token => d.withRegistry (d.registry.apply (.cancel token))
  | .sweep => d.withRegistry (d.registry.run d.registry.sweepActions)
  | .sweepDue => d.withRegistry (d.registry.run d.registry.sweepDueActions)
  | .elapse ms => d.withRegistry (d.registry.apply (.elapse ms))

/-- What a list of moves makes of a new registry. -/
def play (config : Config) (moves : List Move) : Directory :=
  moves.foldl perform { registry := .new config {} }

end Directory

/-! ### What is seen of a subscriber -/

/-- The kind and the frame of a write that begins to the subscriber. -/
def Event.begunTo? (s : SessionId) : Event → Option (DeliveryKind × Batch Nat)
  | .writeBegun who kind _ frame => if who.id = s then some (kind, frame) else none
  | _ => none

/-- The writes to the subscriber, the latest first. -/
def Registry.begun (r : Registry) (s : SessionId) : List (DeliveryKind × Batch Nat) :=
  r.history.filterMap (Event.begunTo? s)

/-- How a subscriber stands, and what was written to it. -/
structure Outlook where
  written : List (DeliveryKind × Batch Nat)
  cursor : Cursor Nat
  lastSent : Option (Batch Nat)
  writes : Nat
  pending : List (Batch Nat)
  stage : Stage
  deriving DecidableEq, Repr

def Session.outlook (x : Session) (begun : List (DeliveryKind × Batch Nat)) : Outlook where
  written := begun.reverse
  cursor := x.cursor
  lastSent := x.lastSent
  writes := x.writes
  pending := x.queue.heap.toList
  stage := x.stage

/-- What is seen of the subscriber with a name, if there is one. -/
def Directory.outlook? (d : Directory) (name : String) : Option Outlook :=
  (d.lookup? name).bind fun e =>
    (d.registry.session? e.session).map fun x => x.outlook (d.registry.begun e.session)

/-! ### The moves that concern a subscriber -/

namespace Move

/-- Whether the move ends the connection of those who were registered so. -/
def cancels (request : Subscription) : Move → Bool
  | .cancel token => request.token == some token
  | _ => false

/-- Whether a move concerns the subscriber that was registered so under the name. A live batch does
if the subscriber wants to see it, and a sweep does once the connection has been cancelled (`gone`).
The clock, and with it the sweeps that are due, is everybody's. -/
def concerns (name : String) (request : Subscription) (gone : Bool) : Move → Bool
  | .subscribe other _ | .act other _ => other == name
  | .publishLive b => b.items.all request.filter
  | .cancel token => request.token == some token
  | .sweep => gone
  | .sweepDue | .elapse _ => true

/-- How the name is registered, if it is. -/
def request? (name : String) : Move → Option Subscription
  | .subscribe other request => if other = name then some request.toSubscription else none
  | _ => none

/-- The moves that concern the subscriber that is registered so under the name. -/
def sharing (name : String) (request : Subscription) : Bool → List Move → List Move
  | _, [] => []
  | gone, move :: rest =>
    let later := sharing name request (gone || move.cancels request) rest
    if move.concerns name request gone then move :: later else later

/-- The moves that concern a name; the first registration under it is the one that counts. -/
def share (name : String) (moves : List Move) : List Move :=
  match moves.findSome? (request? name) with
  | some request => sharing name request false moves
  | none => []

end Move

end Multicast
