import Multicast.Registry.Calls
import Multicast.Schedule
/-!
The registry as a system of tasks: the worker of each subscriber, and each call or loop. A task runs
to its next wait in one step (`Registry.step`); which ready task goes next is left open here, and
`Registry.system` leaves it to a schedule. `Action` gathers everything that can happen to a
registry, in whatever order, and `Registry.apply` does it.
-/

namespace Multicast

/-- A task of a registry. -/
inductive Task
  | worker (s : SessionId)
  | call (i : Nat)
  deriving DecidableEq, Repr

/-- Whether a call has come to its end. -/
def Call.isOver : Call → Bool
  | .returned _ | .crashed => true
  | _ => false

def Call.sleepsUntil : Call → Option Nat
  | .subscribing _ hook => some hook.moment
  | .backfilling b => b.current.sleepsUntil
  | .sending d => d.sleepsUntil
  | .unsubscribing _ f | .farewell _ f => f.sleepsUntil
  | .sweeping p => some p.hook.moment
  | .pinging p => (p.pings.filterMap PingPoint.sleepsUntil).min?
  | .stopping p => some p.deadline
  | .awaitingRemoval _ => none
  | .sweepLoop l => (l.pass.map (·.hook.moment)).or (some l.moment)
  | .pingLoop l =>
    match l.pass with
    | some p => (p.pings.filterMap PingPoint.sleepsUntil).min?
    | none => some l.moment
  | .returned _ | .crashed => none

namespace Registry

def callReady (r : Registry) (i : Nat) : Call → Bool
  | .subscribing _ hook => hook.ready r.now
  | .backfilling b => r.directReady (.call i) b.current
  | .sending d => r.directReady (.call i) d
  | .unsubscribing s f | .farewell s f => r.farewellReady s f
  | .sweeping p => p.hook.ready r.now
  | .pinging p => r.pingsReady (.call i) p
  | .stopping p => r.stopReady p
  | .awaitingRemoval s => ((r.session? s).map (·.completed)).getD false
  | .sweepLoop l =>
    match l.pass with
    | some p => p.hook.ready r.now
    | none => r.stopped || decide (l.next ≤ r.nanos)
  | .pingLoop l =>
    match l.pass with
    | some p => r.pingsReady (.call i) p
    | none => r.stopped || decide (l.next ≤ r.nanos)
  | .returned _ | .crashed => false

/-- Lets a call that need not wait go on. -/
def callStep (r : Registry) (i : Nat) : Call → Registry
  | .subscribing request hook => r.subscribeStep i request hook
  | .backfilling b => settleCall i .backfilling returnedCount (r.backfillStep (.call i) b)
  | .sending d => sent i (r.directStep (.call i) d)
  | .unsubscribing s f => unsubscribeProgress i s (r.farewellStep s f)
  | .farewell s f => farewellProgress i s (r.farewellStep s f)
  | .sweeping p => settleCall i .sweeping returnedCount (r.sweepStep p)
  | .pinging p => settleCall i .pinging returnedCount (r.pingStep (.call i) p)
  | .stopping p => r.stopStep i p
  | .awaitingRemoval _ => r.setCall i (.returned (.ok .removed))
  | .sweepLoop l => r.sweepLoopStep i l
  | .pingLoop l => r.pingLoopStep i l
  | .returned _ | .crashed => r

def ready (r : Registry) : Task → Bool
  | .worker s => r.workerReady s
  | .call i =>
    match r.calls[i]? with
    | some c => r.callReady i c
    | none => false

/-- Lets a task that need not wait go on to its next wait. -/
def step (r : Registry) : Task → Registry
  | .worker s => r.workerStep s
  | .call i =>
    match r.calls[i]? with
    | some c => r.callStep i c
    | none => r

def sleepsUntil (r : Registry) : Task → Option Nat
  | .worker s =>
    match (r.session? s).map Session.worker with
    | some (.delivering run) => run.sleepsUntil
    | _ => none
  | .call i => (r.calls[i]?).bind Call.sleepsUntil

/-- The numbers of the calls that have not come to their end. -/
def openCalls (r : Registry) : List Nat :=
  (List.range r.calls.length).filter fun i => ((r.calls[i]?).map fun c => !c.isOver).getD false

def tasks (r : Registry) : List Task :=
  (List.range r.sessions.length).map .worker ++ r.openCalls.map .call

/-- A bound on the steps that can follow each other without a wait: each batch and each visit of a
call to a subscriber costs a few. -/
def effort (r : Registry) : Nat :=
  20 * (r.openCalls.length + r.sessions.length + 1) *
    ((r.sessions.map (·.queue.size)).foldr (· + ·) 0 + r.sessions.length + 1)

def system : TaskSystem Registry Task where
  tasks := tasks
  ready := ready
  sleepsUntil := sleepsUntil
  step := step
  now r := r.now
  atTime r t := { r with now := t }
  effort := effort

/-! ### What reaches a registry from outside -/

/-- The delivery with its write let go on with the given outcome, if it is held. -/
def release? (now : Nat) (o : WriteOutcome) (d : Delivery) : Option Delivery :=
  match d.point with
  | .writing .held => some { d with point := .writing (.playing now o) }
  | _ => none

/-- The direct delivery to the subscriber with its write let go on, if it is held. -/
def releaseDirect? (now : Nat) (s : SessionId) (o : WriteOutcome) (d : Direct) : Option Direct :=
  if d.session = s then
    ((d.delivery.bind (release? now o))).map fun run => { d with delivery := some run }
  else none

/-- The pings with one write let go on, if one is held. -/
def releasePings? (now : Nat) (s : SessionId) (o : WriteOutcome) :
    List PingPoint → Option (List PingPoint)
  | [] => none
  | .waiting d :: rest =>
    match releaseDirect? now s o d with
    | some d' => some (.waiting d' :: rest)
    | none => (releasePings? now s o rest).map (.waiting d :: ·)
  | .answered b :: rest => (releasePings? now s o rest).map (.answered b :: ·)

/-- The call with its write to the subscriber let go on, if it is held. -/
def releaseCall? (now : Nat) (s : SessionId) (o : WriteOutcome) : Call → Option Call
  | .backfilling b =>
    (releaseDirect? now s o b.current).map fun d => .backfilling { b with current := d }
  | .sending d => (releaseDirect? now s o d).map .sending
  | .pinging p => (releasePings? now s o p.pings).map fun ps => .pinging ⟨ps⟩
  | .pingLoop l =>
    (l.pass.bind fun p => releasePings? now s o p.pings).map fun ps =>
      .pingLoop { l with pass := some ⟨ps⟩ }
  | _ => none

/-- The calls with one write to the subscriber let go on, if one is held. -/
def releaseCalls? (now : Nat) (s : SessionId) (o : WriteOutcome) : List Call → Option (List Call)
  | [] => none
  | c :: rest =>
    match releaseCall? now s o c with
    | some c' => some (c' :: rest)
    | none => (releaseCalls? now s o rest).map (c :: ·)

/-- Lets the write to a subscriber go on that is held; the answer says whether there was one. -/
def release (r : Registry) (s : SessionId) (o : WriteOutcome) : Registry × Bool :=
  let fromWorker := match (r.session? s).map Session.worker with
    | some (.delivering run) => release? r.now o run
    | _ => none
  match fromWorker with
  | some run => (r.setWorker s (.delivering run), true)
  | none =>
    match releaseCalls? r.now s o r.calls with
    | some calls => ({ r with calls := calls }, true)
    | none => (r, false)

def receive? (r : Registry) (s : SessionId) : Option (Batch Nat × Registry) :=
  match (r.session? s).map Session.sink with
  | some (.channel c) =>
    c.receive?.map fun (b, c') => (b, r.update s fun x => { x with sink := .channel c' })
  | _ => none

/-- Drops the receiver of the channel of a subscriber. -/
def dropReceiver (r : Registry) (s : SessionId) : Registry :=
  r.update s fun x =>
    match x.sink with
    | .channel c => { x with sink := .channel c.close }
    | .scripted _ => x

end Registry

/-- Whatever can happen to a registry. -/
inductive Action
  /-- A task that need not wait goes on to its next wait. -/
  | run (t : Task)
  /-- A loop that is due begins a pass, even if the registry has been stopped meanwhile. -/
  | tick (i : Nat)
  | elapse (ms : Nat)
  | subscribe (request : Subscription)
  | activate (s : SessionId)
  | publishLive (b : Batch Nat)
  | publishHistorical (b : Batch Nat)
  | sendHistorical (s : SessionId) (b : Batch Nat)
  | unsubscribe (s : SessionId)
  | sweep
  | ping
  | stop
  | drop
  | cancel (token : String)
  | release (s : SessionId) (o : WriteOutcome)
  | receive (s : SessionId)
  | dropReceiver (s : SessionId)
  | awaitRemoval (s : SessionId)

namespace Registry

/-- A loop that is due begins a pass. -/
def tick (r : Registry) (i : Nat) : Registry :=
  match r.calls[i]? with
  | some (.sweepLoop l) => if l.pass.isNone && decide (l.next ≤ r.nanos) then r.sweepTick i l else r
  | some (.pingLoop l) => if l.pass.isNone && decide (l.next ≤ r.nanos) then r.pingTick i l else r
  | _ => r

/-- What an action makes of a registry. A task that has to wait does nothing. -/
def apply (r : Registry) : Action → Registry
  | .run t => if r.ready t then r.step t else r
  | .tick i => r.tick i
  | .elapse ms => { r with now := r.now + ms }
  | .subscribe request => r.subscribe request
  | .activate s => (r.activate s).1
  | .publishLive b => (r.publishLive b).1
  | .publishHistorical b => r.publishHistorical b
  | .sendHistorical s b => r.sendHistorical s b
  | .unsubscribe s => r.unsubscribe s
  | .sweep => r.sweep
  | .ping => r.ping
  | .stop => r.stop
  | .drop => r.drop
  | .cancel token => r.cancel token
  | .release s o => (r.release s o).1
  | .receive s => ((r.receive? s).map (·.2)).getD r
  | .dropReceiver s => r.dropReceiver s
  | .awaitRemoval s => r.awaitRemoval s

/-- What a list of actions makes of a registry. -/
def run (r : Registry) (actions : List Action) : Registry := actions.foldl apply r

end Registry

end Multicast
