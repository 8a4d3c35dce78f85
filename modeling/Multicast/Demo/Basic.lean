import Multicast.Demo.Event
import Multicast.Registry.Step
/-!
The demonstration: a registry, a main task that registers the subscribers and later brings all to an
end, a producer that publishes an event at every turn of its clock, and one consumer for each
subscriber. As for the registry, a task runs to its next wait in one step; `Demo.apply` lets them
run in any order, and `Demo.system` leaves the order to a schedule.
-/

namespace Multicast

/-- Where the main task stands. -/
inductive MainPoint
  /-- It waits for a subscriber to be registered, by the call with the given number. -/
  | subscribing (i call : Nat)
  /-- It waits for the history to be sent to a subscriber. -/
  | backfilling (i call : Nat)
  | serving
  | joining
  | stopping (call : Nat)
  /-- It waits for the consumers to end, but not for ever. -/
  | draining (deadline : Nat)
  | ended
  | failed (e : RegistryError)
  deriving DecidableEq, Repr

/-- Where the producer stands. -/
inductive ProducerPoint
  | absent
  | ticking (next : Nat)
  | ended
  deriving DecidableEq, Repr

/-- The consumer of a subscriber. -/
structure Consumer where
  /-- The batches that it has received, the latest first. -/
  received : List (Batch Nat) := []
  ended : Bool := false
  deriving DecidableEq, Repr

/-- The demonstration in its course. -/
structure Demo where
  settings : Settings
  registry : Registry
  main : MainPoint
  producer : ProducerPoint := .absent
  sequence : Nat := Demo.historyLength
  /-- The consumers of the subscribers so far, in order. -/
  consumers : List Consumer := []
  signal : Option StopSignal := none
  history : List DemoEvent := []

/-- A task of the demonstration. -/
inductive DemoTask
  | main
  | registry (t : Task)
  | producer
  | consumer (i : Nat)
  deriving DecidableEq, Repr

namespace Demo

/-- How long the consumers have to come to their end, in seconds. -/
def shutdownSeconds : Nat := 30

def note (d : Demo) (e : DemoEvent) : Demo := { d with history := e :: d.history }

/-- The demonstration with the registry in a later state; what has happened there is taken over. -/
def withRegistry (d : Demo) (r : Registry) : Demo :=
  { d with
    registry := r
    history := (r.history.take (r.history.length - d.registry.history.length)).map .registry ++
      d.history }

/-! ### The main task -/

def callSubscribe (d : Demo) (i : Nat) : Demo :=
  { d.withRegistry (d.registry.subscribe (subscription i)) with
    main := .subscribing i d.registry.calls.length }

/-- Begins with a subscriber, or with the producer if there are subscribers enough. -/
def welcome (d : Demo) (i : Nat) : Demo :=
  if i < d.settings.demo.subscribers then d.callSubscribe i
  else { d with main := .serving, producer := .ticking d.registry.now }

def new (settings : Settings) : Demo :=
  let d : Demo := {
    settings := settings
    registry := { config := settings.stream.config, hooks := hooks }
    main := .serving
    history := [.configured settings] }
  (d.withRegistry (.new settings.stream.config hooks)).welcome 0

/-- The time that passes between two turns of the producer. -/
def tick (d : Demo) : Nat := d.settings.demo.tickInterval.millis

def isCancelled (d : Demo) : Bool := d.registry.cancelledTokens.contains shutdownToken

def mainReady (d : Demo) : Bool :=
  match d.main with
  | .subscribing _ call | .backfilling _ call | .stopping call => d.registry.isOver call
  | .serving => d.signal.isSome
  | .joining => d.producer == .ended
  | .draining deadline => d.consumers.all (·.ended) || decide (deadline ≤ d.registry.now)
  | .ended | .failed _ => false

/-- Lets the main task go on that need not wait. -/
def mainStep (d : Demo) : Demo :=
  match d.main with
  | .subscribing i call =>
    match d.registry.calls[call]? with
    | some (.returned (.ok (.subscribed s))) =>
      { d.withRegistry (d.registry.sendHistorical s (backfill i)) with
        main := .backfilling i d.registry.calls.length }
    | some (.returned (.error e)) => { d with main := .failed e }
    | _ => d
  | .backfilling i _ =>
    -- live batches may go out only after the history
    let d := d.withRegistry (d.registry.activate i).1
    let consumer : Consumer := {}
    { d with consumers := d.consumers ++ [consumer] }.welcome (i + 1)
  | .serving =>
    match d.signal with
    | none => d
    | some s =>
      let d := (d.note (.signalled s)).note (.shutdownBegun shutdownSeconds)
      { d with registry := d.registry.cancel shutdownToken, main := .joining }
  | .joining =>
    { d.withRegistry d.registry.stop with main := .stopping d.registry.calls.length }
  | .stopping _ => { d with main := .draining (d.registry.now + shutdownSeconds * 1000) }
  | .draining _ =>
    let d := if d.consumers.all (·.ended) then d else d.note (.consumersLate shutdownSeconds)
    { d.note .stopped with main := .ended }
  | .ended | .failed _ => d

/-! ### The producer -/

def publish (d : Demo) (item : Item Nat) : Demo :=
  match d.registry.publishLive (.single item) with
  | (r, .ok routed) => (d.withRegistry r).note (.published item.id routed)
  | (r, .error e) => (d.withRegistry r).note (.refused item.id e)

/-- A turn of the producer: the next event, and sometimes an older one again. -/
def produce (d : Demo) : Demo :=
  let d := { d with sequence := d.sequence + 1 }
  (published d.sequence).foldl publish d

def producerReady (d : Demo) : Bool :=
  match d.producer with
  | .ticking next => d.isCancelled || decide (next ≤ d.registry.now)
  | .absent | .ended => false

/-- Lets the producer go on that need not wait. -/
def producerStep (d : Demo) : Demo :=
  match d.producer with
  | .ticking next =>
    if d.isCancelled then { d.note (.producerCancelled d.sequence) with producer := .ended }
    else
      let l : Loop Unit := { period := d.tick, next := next }
      { d with producer := .ticking (l.after d.registry.now) }.produce
  | .absent | .ended => d

/-! ### The consumers -/

/-- Whether nobody can write to the subscribers any more. -/
def sinksGone (d : Demo) : Bool :=
  match d.main with
  | .draining _ | .ended => true
  | _ => false

/-- Whether the consumer of a subscriber need not wait. -/
def consumerReady (d : Demo) (i : Nat) : Bool :=
  match d.consumers[i]? with
  | none => false
  | some c => !c.ended && ((d.registry.receive? i).isSome || d.sinksGone)

/-- Lets the consumer of a subscriber go on that need not wait. -/
def consumerStep (d : Demo) (i : Nat) : Demo :=
  match d.consumers[i]? with
  | none => d
  | some c =>
    match d.registry.receive? i with
    | some (b, r) =>
      { d.note (.received i b) with
        registry := r
        consumers := d.consumers.set i { c with received := b :: c.received } }
    | none =>
      -- nothing is left to receive and nobody can send any more
      { d.note (.consumerFinished i ((c.received.map (·.size)).foldr (· + ·) 0)) with
        consumers := d.consumers.set i { c with ended := true } }

/-! ### The whole -/

def tasks (d : Demo) : List DemoTask :=
  .main :: (d.registry.tasks.map .registry ++
    .producer :: (List.range d.consumers.length).map .consumer)

def ready (d : Demo) : DemoTask → Bool
  | .main => d.mainReady
  | .registry t => d.registry.ready t
  | .producer => d.producerReady
  | .consumer i => d.consumerReady i

/-- Lets a task that need not wait go on to its next wait. -/
def step (d : Demo) : DemoTask → Demo
  | .main => d.mainStep
  | .registry t => d.withRegistry (d.registry.step t)
  | .producer => d.producerStep
  | .consumer i => d.consumerStep i

def sleepsUntil (d : Demo) : DemoTask → Option Nat
  | .main =>
    match d.main with
    | .draining deadline => some deadline
    | _ => none
  | .registry t => d.registry.sleepsUntil t
  | .producer =>
    match d.producer with
    | .ticking next => some next
    | .absent | .ended => none
  | .consumer _ => none

def atTime (d : Demo) (t : Nat) : Demo := { d with registry := { d.registry with now := t } }

/-- A bound on the steps that can follow each other without a wait: each subscriber costs a few. -/
def effort (d : Demo) : Nat := (d.registry.effort + 100) * (d.settings.demo.subscribers + 2)

def system : TaskSystem Demo DemoTask where
  tasks := tasks
  ready := ready
  sleepsUntil := sleepsUntil
  step := step
  now d := d.registry.now
  atTime := atTime
  effort := effort

end Demo

/-- Whatever can happen to the demonstration. -/
inductive DemoAction
  /-- A task that need not wait goes on to its next wait. -/
  | run (t : DemoTask)
  | elapse (ms : Nat)
  | signal (s : StopSignal)
  deriving DecidableEq, Repr

namespace Demo

/-- Tells the demonstration to end; only the first time counts. -/
def tellToEnd (d : Demo) (s : StopSignal) : Demo := { d with signal := d.signal.or (some s) }

/-- What an action makes of the demonstration. A task that has to wait does nothing. -/
def apply (d : Demo) : DemoAction → Demo
  | .run t => if d.ready t then d.step t else d
  | .elapse ms => d.atTime (d.registry.now + ms)
  | .signal s => d.tellToEnd s

/-- What a list of actions makes of the demonstration. -/
def run (d : Demo) (actions : List DemoAction) : Demo := actions.foldl apply d

/-- The batches that the consumer of a subscriber has received, in order. -/
def received (d : Demo) (i : Nat) : List (Batch Nat) :=
  ((d.consumers[i]?).map fun c => c.received.reverse).getD []

/-- The lines of the log since the history had the given length, in order. -/
def linesSince (d : Demo) (n : Nat) (idText : SessionId → String) (time : String) : List LogLine :=
  (d.history.take (d.history.length - n)).reverse.filterMap (·.logLine? idText time)

def lines (d : Demo) (idText : SessionId → String) (time : String) : List LogLine :=
  d.linesSince 0 idText time

end Demo

end Multicast
