import Multicast.Registry.Step
import Multicast.Registry.Text
/-!
A registry exercised step by step. Subscribers have names; each step makes one call or changes
something outside the registry, and then everything runs until it waits. Of every step remains what
it answered, which earlier calls came to their end in it, what happened, and how every subscriber
stands.
-/

namespace Multicast

/-- One step of a scenario. -/
inductive RegistryStep
  | subscribe (name : String) (request : Subscription)
  | activate (name : String)
  | publishLive (batches : List (Batch Nat))
  | publishHistorical (batch : Batch Nat)
  | sendHistorical (name : String) (batch : Batch Nat)
  | unsubscribe (name : String)
  | sweep
  | ping
  | stop
  | awaitRemoval (name : String)
  | cancel (token : String)
  | release (name : String) (outcome : WriteOutcome)
  | advance (ms : Nat)
  | stats
  | list
  | config
  | metrics
  | accepts (name : String) (batch : Batch Nat)
  | info (name : String)
  | describe
  | describeInfo (name : String)
  | describeSession (name : String)
  | receive (name : String)
  | dropReceiver (name : String)
  | sinkClosed (name : String)
  | drop

/-- The numbers that a registry gives of itself. -/
structure RegistryStats where
  sessions : Nat
  active : Nat
  cancelled : Nat
  pending : Nat
  stopped : Bool
  deriving DecidableEq, Repr

/-- How a call came to its end. -/
inductive CallResult
  | returned (r : Except RegistryError Answer)
  | crashed

/-- What a step answers. -/
inductive StepAnswer
  | nothing
  /-- No subscriber of that name was ever registered. -/
  | noSession
  | flag (b : Bool)
  | counts (rs : List (Except RegistryError Nat))
  | names (ns : List String)
  | text (s : String)
  | config (c : Config)
  | stats (s : RegistryStats)
  | metrics (m : Metrics)
  | info (peer : String) (keys : List String) (cancellable : Bool)
  | received (b : Batch Nat)
  | empty
  | dropped
  | ended (r : CallResult)
  | pending

/-- How a subscriber stands. -/
structure SessionView where
  stage : Stage
  pending : Nat
  writes : Nat
  position : Option Nat
  lastSent : Option (Batch Nat)
  cancelled : Bool
  completed : Bool
  deriving Repr

/-- What remains of a step. -/
structure RegistryEntry where
  answer : StepAnswer
  /-- The earlier steps whose calls came to their end, with the results. -/
  ended : List (Nat × CallResult)
  sessions : List (String × SessionView)
  /-- What was handed to the scripted sinks, by the names of their subscribers. -/
  wrote : List (String × List (Batch Nat))
  events : List Event

/-- A scenario in its course. -/
structure RegistryScenario where
  schedule : Schedule Registry Task
  /-- The names of the subscribers that were ever registered; a name that is given again moves to
  the new subscriber. -/
  names : List (String × SessionId) := []
  /-- Whether the registry is still held from outside. -/
  held : Bool := true
  /-- The open calls that were made by steps: the number of the call, the number of the step and
  the name that a subscription is to give. -/
  awaited : List (Nat × Nat × Option String) := []
  stepsDone : Nat := 0

namespace RegistryScenario

def registry (s : RegistryScenario) : Registry := s.schedule.state

/-- The scenario with the registry in another state. -/
def withRegistry (s : RegistryScenario) (r : Registry) : RegistryScenario :=
  { s with schedule := { s.schedule with state := r } }

/-- The calls that hold the registry while they are under way. -/
def holdsRegistry : Call → Bool
  | .subscribing .. | .backfilling _ | .sending _ | .unsubscribing .. | .sweeping _ | .pinging _
  | .stopping _ => true
  | .awaitingRemoval _ | .farewell .. | .sweepLoop _ | .pingLoop _ | .returned _ | .crashed => false

/-- A registry that nobody holds any more is dropped. -/
def dropIfUnheld (s : RegistryScenario) : RegistryScenario :=
  if s.held || s.registry.calls.any holdsRegistry then s else s.withRegistry s.registry.drop

def settle (s : RegistryScenario) : RegistryScenario :=
  let once := { s with schedule := s.schedule.settle Registry.system }.dropIfUnheld
  { once with schedule := once.schedule.settle Registry.system }

/-- A scenario on a new registry, whose loops have had their first turn. -/
def new (config : Config) (hooks : Hooks) : RegistryScenario :=
  settle { schedule := { state := .new config hooks } }

def find? (s : RegistryScenario) (name : String) : Option SessionId := s.names.lookup name

/-- The step makes the call that comes next, which gives a subscriber the name if it is a
subscription. -/
def callAs (s : RegistryScenario) (name : Option String) (f : Registry → Registry) :
    RegistryScenario × StepAnswer :=
  ({ s.withRegistry (f s.registry) with
      awaited := s.awaited ++ [(s.registry.calls.length, s.stepsDone, name)] }, .pending)

/-- What is done with a subscriber, if there is one of that name. -/
def withSession (s : RegistryScenario) (name : String)
    (f : SessionId → RegistryScenario × StepAnswer) : RegistryScenario × StepAnswer :=
  match s.find? name with
  | some id => f id
  | none => (s, .noSession)

/-- The names of the subscribers in the set, in order. -/
def memberNames (s : RegistryScenario) : List String :=
  s.registry.members.map fun id => ((s.names.find? (·.2 == id)).map Prod.fst).getD ""

/-- The numbers that the registry gives of itself. -/
def stats (r : Registry) : RegistryStats :=
  let members := r.members.filterMap r.session?
  { sessions := r.members.length
    active := (members.filter fun x => decide (x.stage = .active)).length
    cancelled := (r.members.filter r.isCancelled).length
    pending := (members.map (·.queue.size)).foldr (· + ·) 0
    stopped := r.stopped }

def publishAll (r : Registry) : List (Batch Nat) → Registry × List (Except RegistryError Nat)
  | [] => (r, [])
  | b :: rest =>
    let (r, result) := r.publishLive b
    let (r, results) := publishAll r rest
    (r, result :: results)

def ask (s : RegistryScenario) (name : String) (f : Session → StepAnswer) :
    RegistryScenario × StepAnswer :=
  s.withSession name fun id =>
    match s.registry.session? id with
    | some x => (s, f x)
    | none => (s, .noSession)

def act (s : RegistryScenario) : RegistryStep → RegistryScenario × StepAnswer
  | .subscribe name request => s.callAs (some name) (·.subscribe request)
  | .activate name => s.withSession name fun id =>
    let (r, ok) := s.registry.activate id
    (s.withRegistry r, .flag ok)
  | .publishLive batches =>
    let (r, results) := publishAll s.registry batches
    (s.withRegistry r, .counts results)
  | .publishHistorical b => s.callAs none (·.publishHistorical b)
  | .sendHistorical name b => s.withSession name fun id => s.callAs none (·.sendHistorical id b)
  | .unsubscribe name => s.withSession name fun id => s.callAs none (·.unsubscribe id)
  | .sweep => s.callAs none (·.sweep)
  | .ping => s.callAs none (·.ping)
  | .stop => s.callAs none (·.stop)
  | .awaitRemoval name => s.withSession name fun id => s.callAs none (·.awaitRemoval id)
  | .cancel token => (s.withRegistry (s.registry.cancel token), .nothing)
  | .release name o => s.withSession name fun id =>
    let (r, ok) := s.registry.release id o
    (s.withRegistry r, .flag ok)
  | .advance ms => ({ s with schedule := s.schedule.advance Registry.system ms }, .nothing)
  | .stats => (s, .stats (stats s.registry))
  | .list => (s, .names s.memberNames)
  | .config => (s, .config s.registry.config)
  | .metrics => (s, .metrics s.registry.metrics)
  | .accepts name b => s.ask name fun x => .flag (x.accepts b)
  | .info name => s.ask name fun x => .info x.peer x.keys x.token.isSome
  | .describe => (s, .text s.registry.describe)
  | .describeInfo name => s.ask name fun x => .text x.describeInfo
  | .describeSession name => s.ask name fun x => .text (x.describe "ID")
  | .receive name => s.withSession name fun id =>
    match s.registry.receive? id, (s.registry.session? id).map Session.sink with
    | some (b, r), _ => (s.withRegistry r, .received b)
    | none, some (.channel c) => (s, if c.closed then .dropped else .empty)
    | none, _ => (s, .nothing)
  | .dropReceiver name => s.withSession name fun id =>
    let open_ := match (s.registry.session? id).map Session.sink with
      | some (.channel c) => !c.closed
      | _ => false
    (s.withRegistry (s.registry.dropReceiver id), .flag open_)
  | .sinkClosed name => s.ask name fun x =>
    match x.sink with
    | .channel c => .flag c.closed
    | .scripted _ => .nothing
  | .drop => ({ s with held := false }, .flag s.held)

/-- Whether a step can be made without the registry. -/
def outsideRegistry : RegistryStep → Bool
  | .awaitRemoval _ | .cancel _ | .release .. | .advance _ | .metrics | .accepts .. | .info _
  | .describeInfo _ | .describeSession _ | .receive _ | .dropReceiver _ | .sinkClosed _
  | .drop => true
  | _ => false

/-- What a step does; a registry that has been let go can no longer be called. -/
def actIfHeld (s : RegistryScenario) (st : RegistryStep) : RegistryScenario × StepAnswer :=
  if s.held || outsideRegistry st then s.act st else (s, .nothing)

/-- The result of a call that has come to its end. -/
def result? (r : Registry) (i : Nat) : Option CallResult :=
  match r.calls[i]? with
  | some (.returned a) => some (.returned a)
  | some .crashed => some .crashed
  | _ => none

def viewOf (r : Registry) (id : SessionId) : Option SessionView :=
  (r.session? id).map fun x =>
    { stage := x.stage
      pending := x.queue.size
      writes := x.writes
      position := x.cursor.position
      lastSent := x.lastSent
      cancelled := r.isCancelled id
      completed := x.completed }

/-- The names that the subscriptions among the ended calls give. -/
def newNames (r : Registry) (awaited : List (Nat × Nat × Option String)) :
    List (String × SessionId) :=
  awaited.filterMap fun (i, _, name) =>
    match result? r i, name with
    | some (.returned (.ok (.subscribed id))), some n => some (n, id)
    | _, _ => none

/-- What was handed to a scripted sink in the course of some events. -/
def wroteTo (events : List Event) (id : SessionId) : List (Batch Nat) :=
  events.filterMap fun
    | .writeBegun who _ _ frame => if who.id = id then some frame else none
    | _ => none

/-- Whether the sink of a subscriber is scripted. -/
def isScripted (r : Registry) (id : SessionId) : Bool :=
  match (r.session? id).map Session.sink with
  | some (.scripted _) => true
  | _ => false

/-- The events since the history had the given length, in order. -/
def eventsSince (r : Registry) (n : Nat) : List Event :=
  (r.history.take (r.history.length - n)).reverse

def step (s : RegistryScenario) (st : RegistryStep) : RegistryScenario × RegistryEntry :=
  let (acted, answer) := s.actIfHeld st
  let after := acted.settle
  let r := after.registry
  let ended := after.awaited.filterMap fun (i, origin, _) => (result? r i).map fun x => (origin, x)
  let fresh := newNames r after.awaited
  let names := (after.names.filter fun e => !fresh.any (·.1 == e.1)) ++ fresh
  let events := eventsSince r s.registry.history.length
  let entry : RegistryEntry := {
    answer := match answer, ended.find? (·.1 == s.stepsDone) with
      | .pending, some (_, x) => .ended x
      | a, _ => a
    ended := ended.filter fun e => !(e.1 == s.stepsDone)
    sessions := names.filterMap fun (n, id) => (viewOf r id).map fun v => (n, v)
    wrote := names.filterMap fun (n, id) =>
      match wroteTo events id with
      | [] => none
      | bs => if isScripted r id then some (n, bs) else none
    events := events }
  ({ after with
      names := names
      awaited := after.awaited.filter fun (i, _, _) => (result? r i).isNone
      stepsDone := s.stepsDone + 1 }, entry)

def run (s : RegistryScenario) : List RegistryStep → List RegistryEntry
  | [] => []
  | st :: rest => let (s', e) := s.step st; e :: s'.run rest

end RegistryScenario

end Multicast
