import Mathlib.Logic.Function.Basic
import Multicast.Registry.Basic

/-! One subscriber seen alone. A lane holds the subscriber, where each party stands that deals with
it, and what was written to it; `Lane.Turn` lists the turns that such a lane can take. What one turn
keeps is kept for every subscriber in every run. -/

namespace Multicast

/-- Where a party stands that deals with a subscriber. -/
inductive Post
  /-- It has not asked for the gate. -/
  | away
  /-- It has asked for the gate, and no delivery of it is under way. -/
  | waiting
  | busy (d : Delivery)
  deriving DecidableEq, Repr

/-- What the history tells of one write to a subscriber. -/
inductive WriteMark
  | begun (keepAlive : Bool) (frame : Batch Nat)
  | written (keepAlive : Bool) (frame : Batch Nat)
  | crashed (keepAlive : Bool) (frame : Batch Nat)
  deriving DecidableEq, Repr

/-- What an event tells of the writes to a subscriber. -/
def Event.mark? (s : SessionId) : Event → Option WriteMark
  | .writeBegun who _ keepAlive frame => if who.id = s then some (.begun keepAlive frame) else none
  | .writeSucceeded who _ keepAlive frame =>
    if who.id = s then some (.written keepAlive frame) else none
  | .writeCrashed who _ keepAlive frame =>
    if who.id = s then some (.crashed keepAlive frame) else none
  | _ => none

/-- Whether the batch of a delivery is still being written. -/
def Delivery.isWriting (d : Delivery) : Bool :=
  match d.point with
  | .writing _ => true
  | .removing _ => false

/-- Whether a delivery writes data, which no other may overtake. -/
def Delivery.writesData (d : Delivery) : Bool := d.isWriting && !d.keepAlive

/-- Whether a party may give the gate back: not while it writes data. -/
def Post.mayLeave : Post → Bool
  | .away => false
  | .waiting => true
  | .busy d => !d.writesData

/-- Whether a worker was started and has not come to its end. -/
def WorkerPoint.isUp {ρ : Type} : WorkerPoint ρ → Bool
  | .absent | .stopped | .crashed => false
  | .fresh | .inLine | .delivering _ | .asleep => true

/-- Where a party stands when its delivery has gone on. It still has the gate. -/
def Progress.post {α : Type} : Progress Delivery α → Post
  | .running d => .busy d
  | .done _ | .crashed => .waiting

/-- What the runs of a registry are taken to keep to. -/
structure Terms where
  /-- Which data counts as delivered. -/
  policy : StalePolicy
  /-- The batch that a subscriber gets instead of another. -/
  process : Session → Batch Nat → Batch Nat
  /-- The batches that are published. -/
  admits : Batch Nat → Prop
  /-- Whether the registry may be dropped. -/
  mayDrop : Prop
  /-- Whether somebody may take the right to wait for a worker. -/
  mayJoin : Prop

/-- Whether a frame may be written as data: it is made of a published batch that has items and is
not stale. -/
def Terms.Allows (T : Terms) (x : Session) (frame : Batch Nat) : Prop :=
  ∃ b, T.admits b ∧ b.isPing = false ∧ x.cursor.isStale T.policy b.ids = false ∧
    frame = T.process x b

/-- One subscriber with all that concerns it alone. -/
structure Lane where
  session : Session
  posts : Party → Post
  /-- What was written, the latest first. -/
  log : List WriteMark

open Function (update)

/-- The turns that a lane can take. -/
inductive Lane.Turn (T : Terms) : Lane → Lane → Prop
  /-- The sink and the wake-up signal change freely. The right to wait for the worker is taken only
  when the subscriber is removed. -/
  | adjust {x P log} (sink : Sink) (signal : Signal) (unjoined : Bool)
      (hu : unjoined = x.queue.unjoined ∨ x.stage = .removed ∧ T.mayJoin) :
      Turn T ⟨x, P, log⟩
        ⟨{ x with sink := sink, queue := { x.queue with signal := signal, unjoined := unjoined } },
          P, log⟩
  /-- A party asks for the gate of an open queue. -/
  | join {x P log} (p : Party) (hp : P p = .away) (hc : x.queue.closed = false) :
      Turn T ⟨x, P, log⟩
        ⟨{ x with queue := { x.queue with gate := x.queue.gate.join p } },
          update P p .waiting, log⟩
  /-- A party gives the gate back or gives up waiting for it. -/
  | leave {x P log} (p : Party) (hp : (P p).mayLeave = true) :
      Turn T ⟨x, P, log⟩ ⟨{ x with queue := x.queue.leave p }, update P p .away, log⟩
  /-- A live batch is taken from the queue. -/
  | take {x P log} (b : Batch Nat) (rest : Heap Nat) (hb : x.queue.heap.pop? = some (b, rest)) :
      Turn T ⟨x, P, log⟩ ⟨{ x with queue := { x.queue with heap := rest } }, P, log⟩
  /-- The holder of the gate begins to write. -/
  | begin {x P log} (p : Party) (d : Delivery) (sink : Sink) (hp : P p = .waiting)
      (hg : x.queue.gate.holds p = true) (hc : x.queue.closed = false) (hw : d.isWriting = true)
      (hd : d.keepAlive = false → T.Allows x d.frame) :
      Turn T ⟨x, P, log⟩
        ⟨{ x with sink := sink }, update P p (.busy d), .begun d.keepAlive d.frame :: log⟩
  /-- A delivery goes on without coming to its end. -/
  | goOn {x P log} (p : Party) (d d' : Delivery) (hp : P p = .busy d)
      (hf : d'.frame = d.frame) (hk : d'.keepAlive = d.keepAlive)
      (hw : d'.isWriting = d.isWriting) : Turn T ⟨x, P, log⟩ ⟨x, update P p (.busy d'), log⟩
  /-- A write succeeds. -/
  | succeed {x P log} (p : Party) (d : Delivery) (hp : P p = .busy d) (hw : d.isWriting = true) :
      Turn T ⟨x, P, log⟩
        ⟨if d.keepAlive then x.recordWrite else x.recordWrite.recordDelivery d.frame,
          update P p .waiting, .written d.keepAlive d.frame :: log⟩
  /-- A write fails, for which the subscriber is removed; the delivery goes on to the callback. -/
  | fall {x P log} (p : Party) (d d' : Delivery) (hp : P p = .busy d) (hw : d.isWriting = true)
      (hx : x.stage ≠ .removed) (hd : d'.isWriting = false) :
      Turn T ⟨x, P, log⟩ ⟨x.remove, update P p (.busy d'), log⟩
  /-- A delivery ends without success, or the callback after a removal goes on; a write may end so
  only when the subscriber is removed already. -/
  | settle {x P log} (p : Party) (d : Delivery) (post : Post) (hp : P p = .busy d)
      (hd : d.isWriting = true → x.stage = .removed ∧ post = .waiting)
      (hq : post = .waiting ∨ ∃ d', post = .busy d' ∧ d'.isWriting = false) :
      Turn T ⟨x, P, log⟩ ⟨x, update P p post, log⟩
  /-- A write crashes. -/
  | crash {x P log} (p : Party) (d : Delivery) (hp : P p = .busy d) (hw : d.isWriting = true) :
      Turn T ⟨x, P, log⟩ ⟨x, update P p .waiting, .crashed d.keepAlive d.frame :: log⟩
  /-- The worker, once started and until its end, goes on. -/
  | work {x P log} (w : WorkerPoint Delivery) (hx : x.worker.isUp = true) (hw : w ≠ .absent) :
      Turn T ⟨x, P, log⟩ ⟨{ x with worker := w }, P, log⟩
  | activate {x P log} : Turn T ⟨x, P, log⟩ ⟨x.activate.1, P, log⟩
  /-- A live batch is added to an open queue. -/
  | enqueue {x P log} (b : Batch Nat) (hb : T.admits b) (hc : x.queue.closed = false) :
      Turn T ⟨x, P, log⟩ ⟨(x.enqueue b).1, P, log⟩
  /-- A closed queue is closed once more. -/
  | reclose {x P log} (hc : x.queue.closed = true) :
      Turn T ⟨x, P, log⟩ ⟨{ x with queue := x.queue.close }, P, log⟩
  | remove {x P log} : Turn T ⟨x, P, log⟩ ⟨x.remove, P, log⟩

/-- The lane of a subscriber that has just been registered. -/
def Lane.fresh (request : Subscription) (room : Nat) : Lane :=
  ⟨.ofSubscription request room, fun _ => .away, []⟩

end Multicast
