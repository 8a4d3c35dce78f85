import Multicast.DeliveryKind
import Multicast.Gate
import Multicast.Heap
import Multicast.Progress
import Multicast.Signal
/-!
The queue of one subscriber: its pending batches, the gate that lets one delivery through at a
time, and the signal on which the worker sleeps when nothing is pending.

The worker takes a batch only while it holds the gate (`Queue.takeNext`), and stands in line again
after each one (`Queue.workerTurn`). A direct delivery stands in the same line. Closing drops what
is pending; whatever then reaches the head of the line finds the queue closed.
-/

namespace Multicast

/-- The state of a queue that both its worker and direct deliveries see. -/
structure Queue (ι : Type) where
  heap : Heap ι
  gate : Gate := {}
  signal : Signal := .clear
  started : Bool := false
  closed : Bool := false
  /-- Whether nobody has yet asked for the end of the worker that was started. -/
  unjoined : Bool := false
  deriving Repr, Inhabited

/-- Where the worker of a queue stands; `ρ` describes a delivery under way. -/
inductive WorkerPoint (ρ : Type)
  | absent
  /-- It has been started and has not run yet. -/
  | fresh
  | inLine
  | delivering (run : ρ)
  /-- It sleeps until it is woken or the queue closes. -/
  | asleep
  | stopped
  /-- A delivery that it made has crashed, and the worker with it. -/
  | crashed
  deriving Repr, Inhabited

namespace WorkerPoint

variable {ρ : Type}

/-- Whether the worker will never do anything again. -/
def isOver : WorkerPoint ρ → Bool
  | .stopped | .crashed => true
  | _ => false

end WorkerPoint

namespace Queue

variable {ι : Type}

/-- A new queue with room for `n` batches. -/
def ofCapacity (n : Nat) : Queue ι where
  heap := .withCapacity n

def size (q : Queue ι) : Nat := q.heap.size

/-- Adds a batch and wakes the worker; a closed queue refuses. -/
def enqueue [LT ι] [DecidableLT ι] (q : Queue ι) (b : Batch ι) : Queue ι × Bool :=
  if q.closed then (q, false)
  else ({ q with heap := q.heap.push b, signal := q.signal.notify }, true)

/-- Asks for the worker to be started; a queue that is closed or has a worker refuses. -/
def start (q : Queue ι) : Queue ι × Bool :=
  if q.closed || q.started then (q, false)
  else ({ q with started := true, unjoined := true }, true)

/-- Closes the queue and drops what is pending. -/
def close (q : Queue ι) : Queue ι := { q with closed := true, heap := .withCapacity 0 }

/-- Closes the queue and leaves what is pending where it is. -/
def shut (q : Queue ι) : Queue ι := { q with closed := true }

/-- Asks for the end of the worker. The answer says whether there is a worker to wait for; only the
first one who asks is told so. -/
def join (q : Queue ι) : Queue ι × Bool := ({ q with unjoined := false }, q.unjoined)

/-- A direct delivery asks for the gate; a closed queue refuses. -/
def ask (q : Queue ι) (p : Party) : Queue ι × Bool :=
  if q.closed then (q, false) else ({ q with gate := q.gate.join p }, true)

/-- Gives the gate back, or gives up waiting for it. -/
def leave (q : Queue ι) (p : Party) : Queue ι := { q with gate := q.gate.leave p }

/-- The head of the worker's loop: it stands in line again, unless the queue is closed. -/
def workerTurn (q : Queue ι) : Queue ι × Bool := q.ask .worker

/-- The worker holds the gate and takes the batch that stands first. If there is none, or the queue
has closed, it gives the gate back and goes to sleep. -/
def takeNext [LT ι] [DecidableLT ι] (q : Queue ι) : Queue ι × Option (Batch ι) :=
  match q.heap.pop? with
  | some (b, rest) =>
    if q.closed then
      -- the batch is lost, as those are that a close drops
      ({ q with heap := rest, gate := q.gate.leave .worker, signal := q.signal.await }, none)
    else ({ q with heap := rest }, some b)
  | none => ({ q with gate := q.gate.leave .worker, signal := q.signal.await }, none)

/-- Whether a worker at `p` need not wait any longer, `ready` being the rule for a delivery under
way. -/
def workerReady {ρ : Type} (q : Queue ι) (ready : ρ → Bool) : WorkerPoint ρ → Bool
  | .fresh => true
  | .inLine => q.gate.holds .worker
  | .delivering run => ready run
  | .asleep => q.closed || q.signal.isGiven
  | .absent | .stopped | .crashed => false

end Queue

end Multicast
