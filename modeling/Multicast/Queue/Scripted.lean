import Multicast.Queue
import Multicast.Schedule
/-!
A queue by itself, with a handler that follows a script. Each delivery plays the next list of acts
of the script: it may wait, act on the queue it is delivered from, or crash. The state keeps what
the calls on the queue have returned and a history of what has happened.

`ScriptedQueue.step` lets the worker or one call go on to its next wait, whoever is ready; the
functions named for the calls (`enqueue`, `start`, `deliverNow`, `close`, `shutdown`, `release`)
are what happens at once when a call is made.
-/

namespace Multicast

/-- What a handler may do in the course of one delivery. -/
inductive HandlerAct
  | sleep (ms : Nat)
  /-- Waits to be released, and then does what the release says instead of the rest. -/
  | hold
  | enqueue (batch : Batch Nat)
  | start
  | close
  /-- Closes the queue and waits for the end of the worker. -/
  | shutdown
  /-- Asks for a direct delivery on the queue and waits for it. -/
  | deliver (batch : Batch Nat) (kind : DeliveryKind)
  | crash
  deriving DecidableEq, Repr

/-- What a handler waits for. -/
inductive HandlerWait
  | nothing
  | moment (time : Nat)
  | release
  | workerEnd
  /-- The gate that it holds itself; nothing ends this wait. -/
  | itself
  deriving DecidableEq, Repr

/-- A delivery under way. -/
structure HandlerRun where
  batch : Batch Nat
  kind : DeliveryKind
  acts : List HandlerAct
  wait : HandlerWait := .nothing
  note : Option Bool := none
  deriving DecidableEq, Repr

/-- A call on the queue that may have to wait. -/
inductive QueueCall
  | inLine (batch : Batch Nat) (kind : DeliveryKind)
  | delivering (run : HandlerRun)
  /-- A shutdown that waits for the end of the worker. -/
  | joining
  /-- The call has returned, with a truth value or with nothing. -/
  | returned (answer : Option Bool)
  | crashed
  deriving DecidableEq, Repr

/-- Ends the wait of a delivery that is held; it does the given acts instead of the rest. -/
def HandlerRun.released? (run : HandlerRun) (acts : List HandlerAct) : Option HandlerRun :=
  match run.wait with
  | .release => some { run with acts := acts, wait := .nothing }
  | _ => none

/-- Whether a call has not come to its end. -/
def QueueCall.isOpen : QueueCall → Bool
  | .returned _ | .crashed => false
  | _ => true

def HandlerRun.sleepsUntil (run : HandlerRun) : Option Nat :=
  match run.wait with
  | .moment t => some t
  | _ => none

/-- What happens in a queue. -/
inductive QueueEvent
  | accepted (batch : Batch Nat)
  | discarded (batches : List (Batch Nat))
  | handling (who : Party) (batch : Batch Nat) (kind : DeliveryKind)
  | handled (who : Party) (batch : Batch Nat) (note : Option Bool)
  | handlerCrashed (who : Party) (batch : Batch Nat)
  | workerStarted
  | workerStopped
  /-- Somebody who waited for the end of the worker learns that it has crashed. -/
  | workerLost
  deriving DecidableEq, Repr

/-- A queue, its worker, the calls on it and the script of its handler. -/
structure ScriptedQueue where
  queue : Queue Nat
  worker : WorkerPoint HandlerRun := .absent
  calls : List QueueCall := []
  /-- What the deliveries to come will do; when it is used up they do nothing. -/
  script : List (List HandlerAct) := []
  /-- Whether the handler can no longer reach the queue. -/
  outOfReach : Bool := false
  now : Nat := 0
  history : List QueueEvent := []
  deriving Repr

namespace ScriptedQueue

/-- A new queue with room for `n` batches. -/
def new (n : Nat) (script : List (List HandlerAct)) : ScriptedQueue where
  queue := .ofCapacity n
  script := script

def note (w : ScriptedQueue) (e : QueueEvent) : ScriptedQueue :=
  { w with history := e :: w.history }

def enqueue (w : ScriptedQueue) (b : Batch Nat) : ScriptedQueue × Bool :=
  match w.queue.enqueue b with
  | (q, true) => ({ w with queue := q }.note (.accepted b), true)
  | (q, false) => ({ w with queue := q }, false)

def start (w : ScriptedQueue) : ScriptedQueue × Bool :=
  match w.queue.start with
  | (q, true) => ({ w with queue := q, worker := .fresh }, true)
  | (q, false) => ({ w with queue := q }, false)

def close (w : ScriptedQueue) : ScriptedQueue :=
  { w with queue := w.queue.close }.note (.discarded w.queue.heap.toList)

def addCall (w : ScriptedQueue) (c : QueueCall) : ScriptedQueue :=
  { w with calls := w.calls ++ [c] }

/-- Puts the call with the given number into another state. -/
def setCall (w : ScriptedQueue) (i : Nat) (c : QueueCall) : ScriptedQueue :=
  { w with calls := w.calls.set i c }

def deliverNow (w : ScriptedQueue) (b : Batch Nat) (kind : DeliveryKind) : ScriptedQueue :=
  match w.queue.ask (.call w.calls.length) with
  | (q, true) => { w with queue := q }.addCall (.inLine b kind)
  | (_, false) => w.addCall (.returned (some false))

def shutdown (w : ScriptedQueue) : ScriptedQueue :=
  let closed := w.close
  match closed.queue.join with
  | (q, true) => { closed with queue := q }.addCall .joining
  | (_, false) => closed.addCall (.returned none)

/-- A delivery begins: it takes the next part of the script. -/
def beginHandling (w : ScriptedQueue) (p : Party) (b : Batch Nat) (kind : DeliveryKind) :
    ScriptedQueue × HandlerRun :=
  ({ w with script := w.script.tail }.note (.handling p b kind),
    { batch := b, kind := kind, acts := w.script.headD [] })

/-- Whether a delivery under way need not wait any longer. -/
def handlerReady (w : ScriptedQueue) (run : HandlerRun) : Bool :=
  match run.wait with
  | .nothing => true
  | .moment t => decide (t ≤ w.now)
  | .workerEnd => w.worker.isOver
  | .release | .itself => false

/-- A wait for the end of the worker is over. -/
def learnEnd (w : ScriptedQueue) : ScriptedQueue :=
  match w.worker with
  | .crashed => w.note .workerLost
  | _ => w

/-- Does one act of a delivery that need not wait. An act on the queue does nothing when the
handler cannot reach the queue any more; the worker does not wait for its own end. -/
def handlerAct (w : ScriptedQueue) (p : Party) (run : HandlerRun) (act : HandlerAct)
    (rest : List HandlerAct) : ScriptedQueue × Progress HandlerRun (Option Bool) :=
  let next : HandlerRun := { run with acts := rest, wait := .nothing, note := none }
  match act with
  | .sleep ms => (w, .running { next with wait := .moment (w.now + ms) })
  | .hold => (w, .running { next with wait := .release })
  | .crash => (w, .crashed)
  | .enqueue b =>
    if w.outOfReach then (w, .running next)
    else let (w', ok) := w.enqueue b; (w', .running { next with note := some ok })
  | .start =>
    if w.outOfReach then (w, .running next)
    else let (w', ok) := w.start; (w', .running { next with note := some ok })
  | .close => if w.outOfReach then (w, .running next) else (w.close, .running next)
  | .shutdown =>
    if w.outOfReach then (w, .running next)
    else
      let closed := w.close
      let (q, waits) := closed.queue.join
      let joined := { closed with queue := q }
      if waits && !decide (p = .worker) then (joined, .running { next with wait := .workerEnd })
      else (joined, .running next)
  | .deliver _ _ =>
    if w.outOfReach then (w, .running next)
    else if w.queue.closed then (w, .running { next with note := some false })
    -- the delivery that asks holds the gate, and waits for itself
    else (w, .running { next with wait := .itself })

/-- Lets a delivery that need not wait go on. -/
def handlerStep (w : ScriptedQueue) (p : Party) (run : HandlerRun) :
    ScriptedQueue × Progress HandlerRun (Option Bool) :=
  let w := match run.wait with
    | .workerEnd => w.learnEnd
    | _ => w
  match run.acts with
  | [] => (w, .done run.note)
  | act :: rest => w.handlerAct p run act rest

/-- The worker comes to the head of its loop. -/
def workerTurn (w : ScriptedQueue) : ScriptedQueue :=
  match w.queue.workerTurn with
  | (q, true) => { w with queue := q, worker := .inLine }
  | (_, false) => { w with worker := .stopped }.note .workerStopped

/-- Lets a worker that need not wait go on. -/
def workerStep (w : ScriptedQueue) : ScriptedQueue :=
  match w.worker with
  | .fresh => (w.note .workerStarted).workerTurn
  | .inLine =>
    match w.queue.takeNext with
    | (q, some b) =>
      let (w', run) := { w with queue := q }.beginHandling .worker b .live
      { w' with worker := .delivering run }
    | (q, none) => { w with queue := q, worker := .asleep }
  | .delivering run =>
    match w.handlerStep .worker run with
    | (w', .running run') => { w' with worker := .delivering run' }
    | (w', .done note) =>
      ({ w' with queue := w'.queue.leave .worker }.note
        (.handled .worker run.batch note)).workerTurn
    -- the gate is given back as the worker unwinds, and nobody takes its place
    | (w', .crashed) =>
      { w' with queue := w'.queue.leave .worker, worker := .crashed }.note
        (.handlerCrashed .worker run.batch)
  | .asleep =>
    if w.queue.closed then { w with worker := .stopped }.note .workerStopped
    else { w with queue := { w.queue with signal := w.queue.signal.resume } }.workerTurn
  | .absent | .stopped | .crashed => w

/-- Lets a call that need not wait go on. -/
def callStep (w : ScriptedQueue) (i : Nat) : ScriptedQueue :=
  let p := Party.call i
  match w.calls[i]? with
  | some (.inLine b kind) =>
    -- the queue may have closed while the call stood in line
    if w.queue.closed then
      { w with queue := w.queue.leave p }.setCall i (.returned (some false))
    else
      let (w', run) := w.beginHandling p b kind
      w'.setCall i (.delivering run)
  | some (.delivering run) =>
    match w.handlerStep p run with
    | (w', .running run') => w'.setCall i (.delivering run')
    | (w', .done note) =>
      ({ w' with queue := w'.queue.leave p }.setCall i (.returned (some true))).note
        (.handled p run.batch note)
    | (w', .crashed) =>
      ({ w' with queue := w'.queue.leave p }.setCall i .crashed).note
        (.handlerCrashed p run.batch)
  | some .joining => w.learnEnd.setCall i (.returned none)
  | _ => w

/-- Whether the worker or a call need not wait. -/
def ready (w : ScriptedQueue) : Party → Bool
  | .worker => w.queue.workerReady w.handlerReady w.worker
  | .call i =>
    match w.calls[i]? with
    | some (.inLine _ _) => w.queue.gate.holds (.call i)
    | some (.delivering run) => w.handlerReady run
    | some .joining => w.worker.isOver
    | _ => false

/-- Lets the worker or a call go on to its next wait. -/
def step (w : ScriptedQueue) : Party → ScriptedQueue
  | .worker => w.workerStep
  | .call i => w.callStep i

/-- The calls with the one released that is held, if there is one. -/
def releaseCalls (acts : List HandlerAct) : List QueueCall → Option (List QueueCall)
  | [] => none
  | .delivering run :: rest =>
    match run.released? acts with
    | some run' => some (.delivering run' :: rest)
    | none => (releaseCalls acts rest).map (.delivering run :: ·)
  | c :: rest => (releaseCalls acts rest).map (c :: ·)

/-- Releases the delivery that is held; the answer says whether there was one. -/
def release (w : ScriptedQueue) (acts : List HandlerAct) : ScriptedQueue × Bool :=
  let fromWorker := match w.worker with
    | .delivering run => run.released? acts
    | _ => none
  match fromWorker with
  | some run => ({ w with worker := .delivering run }, true)
  | none =>
    match releaseCalls acts w.calls with
    | some calls => ({ w with calls := calls }, true)
    | none => (w, false)

/-- The numbers of the calls that have not come to their end. -/
def openCalls (w : ScriptedQueue) : List Nat :=
  (List.range w.calls.length).filter fun i => (w.calls[i]?.map QueueCall.isOpen).getD false

/-- The number of acts that are still to come. -/
def actsLeft (w : ScriptedQueue) : Nat :=
  let ofCall : QueueCall → Nat
    | .delivering run => run.acts.length
    | _ => 0
  let ofWorker := match w.worker with
    | .delivering run => run.acts.length
    | _ => 0
  (w.script.map List.length).foldr (· + ·) 0 + (w.calls.map ofCall).foldr (· + ·) 0 + ofWorker

/-- The queue as a system of tasks. Every batch and every call costs a few steps besides the acts
of the handler, and every act may add a batch. -/
def system : TaskSystem ScriptedQueue Party where
  tasks w := .worker :: w.openCalls.map .call
  ready := ready
  sleepsUntil w
    | .worker =>
      match w.worker with
      | .delivering run => run.sleepsUntil
      | _ => none
    | .call i =>
      match w.calls[i]? with
      | some (.delivering run) => run.sleepsUntil
      | _ => none
  step := step
  now w := w.now
  atTime w t := { w with now := t }
  effort w := 10 * (w.queue.size + w.calls.length + w.actsLeft + 1)

end ScriptedQueue

end Multicast
