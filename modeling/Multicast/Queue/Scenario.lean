import Multicast.Queue.Text
/-!
A scripted queue exercised step by step: each step makes one call, lets a release through or lets
time pass, and then everything runs until it waits. Of every step remains what it answered, which
earlier calls came to their end in it, what happened, and the state of the queue.
-/

namespace Multicast

/-- One step of a scenario. -/
inductive QueueStep
  | enqueue (batches : List (Batch Nat))
  | start
  | close
  | shutdown
  | deliverNow (batch : Batch Nat) (kind : DeliveryKind)
  | release (acts : List HandlerAct)
  | advance (ms : Nat)
  | describe
  | drop
  deriving Repr

/-- How a call came to its end. -/
inductive QueueResult
  | returned (answer : Option Bool)
  | crashed
  deriving DecidableEq, Repr

/-- What a step answers. -/
inductive QueueAnswer
  | nothing
  | flag (b : Bool)
  | flags (bs : List Bool)
  | text (s : String)
  | ended (r : QueueResult)
  | pending
  deriving DecidableEq, Repr

/-- What can be seen of a queue from outside. -/
structure QueueView where
  size : Nat
  isEmpty : Bool
  started : Bool
  closed : Bool
  deriving DecidableEq, Repr

/-- What remains of a step. -/
structure QueueEntry where
  answer : QueueAnswer
  /-- The earlier steps whose calls came to their end, with the results. -/
  ended : List (Nat × QueueResult)
  events : List QueueEvent
  /-- The state of the queue, unless it has been let go. -/
  view : Option QueueView
  deriving Repr

/-- A scenario in its course. -/
structure QueueScenario where
  schedule : Schedule ScriptedQueue Party
  /-- Whether the queue is still held from outside. -/
  held : Bool := true
  /-- The steps that made the calls, by the numbers of the calls. -/
  origins : List Nat := []
  /-- The calls whose ends are still to be told. -/
  awaited : List Nat := []
  stepsDone : Nat := 0

namespace QueueScenario

def new (capacity : Nat) (script : List (List HandlerAct)) : QueueScenario where
  schedule := { state := .new capacity script }

/-- The state of the queue and its calls. -/
def state (s : QueueScenario) : ScriptedQueue := s.schedule.state

def withState (s : QueueScenario) (w : ScriptedQueue) : QueueScenario :=
  { s with schedule := { s.schedule with state := w } }

/-- A queue that nobody holds any more, neither from outside nor by a call, is shut. -/
def shutIfUnheld (s : QueueScenario) : QueueScenario :=
  if s.held || !s.state.openCalls.isEmpty then s
  else s.withState { s.state with queue := s.state.queue.shut }

def settle (s : QueueScenario) : QueueScenario :=
  let once := { s with schedule := s.schedule.settle ScriptedQueue.system }.shutIfUnheld
  { once with schedule := once.schedule.settle ScriptedQueue.system }

/-- Notes that the step makes the call that comes next. -/
def callAs (s : QueueScenario) (w : ScriptedQueue) : QueueScenario :=
  { s.withState w with
    origins := s.origins ++ [s.stepsDone], awaited := s.awaited ++ [s.state.calls.length] }

/-- What a step does before everything runs; the answer is that of a step that makes no call. -/
def act (s : QueueScenario) : QueueStep → QueueScenario × QueueAnswer
  | .enqueue batches =>
    let (w, oks) := batches.foldl
      (fun (w, oks) b => let (w', ok) := w.enqueue b; (w', oks ++ [ok])) (s.state, [])
    (s.withState w, .flags oks)
  | .start => let (w, ok) := s.state.start; (s.withState w, .flag ok)
  | .close => (s.withState s.state.close, .nothing)
  | .shutdown => (s.callAs s.state.shutdown, .pending)
  | .deliverNow b kind => (s.callAs (s.state.deliverNow b kind), .pending)
  | .release acts => let (w, ok) := s.state.release acts; (s.withState w, .flag ok)
  | .advance ms =>
    ({ s with schedule := s.schedule.advance ScriptedQueue.system ms }, .nothing)
  | .describe => (s, .text s.state.queue.describe)
  | .drop => ({ s.withState { s.state with outOfReach := true } with held := false }, .flag true)

/-- Whether the step can still be made when the queue has been let go. -/
def QueueStep.needsQueue : QueueStep → Bool
  | .release _ | .advance _ => false
  | _ => true

/-- What a step does; a queue that has been let go can no longer be called. -/
def actIfHeld (s : QueueScenario) (step : QueueStep) : QueueScenario × QueueAnswer :=
  if !s.held && QueueStep.needsQueue step then
    match step with
    | .drop => (s, .flag false)
    | _ => (s, .nothing)
  else s.act step

/-- The result of a call that has come to its end. -/
def result? (w : ScriptedQueue) (i : Nat) : Option QueueResult :=
  match w.calls[i]? with
  | some (.returned a) => some (.returned a)
  | some .crashed => some .crashed
  | _ => none

def view (s : QueueScenario) : Option QueueView :=
  if s.held then
    let q := s.state.queue
    some ⟨q.size, q.heap.isEmpty, q.started, q.closed⟩
  else none

def step (s : QueueScenario) (st : QueueStep) : QueueScenario × QueueEntry :=
  let (acted, answer) := s.actIfHeld st
  let after := acted.settle
  let ended := after.awaited.filterMap fun i =>
    match after.origins[i]?, result? after.state i with
    | some origin, some r => some (origin, r)
    | _, _ => none
  let own := ended.find? (·.1 == s.stepsDone)
  let entry : QueueEntry := {
    answer := match answer, own with
      | .pending, some (_, r) => .ended r
      | a, _ => a
    ended := ended.filter fun e => !(e.1 == s.stepsDone)
    events :=
      (after.state.history.take (after.state.history.length - s.state.history.length)).reverse
    view := after.view }
  ({ after with
      awaited := after.awaited.filter fun i => (result? after.state i).isNone
      stepsDone := s.stepsDone + 1 }, entry)

def run (s : QueueScenario) : List QueueStep → List QueueEntry
  | [] => []
  | st :: rest => let (s', e) := s.step st; e :: s'.run rest

end QueueScenario

end Multicast
