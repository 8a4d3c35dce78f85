import Multicast.Cursor
import Multicast.Hook
import Multicast.Queue
import Multicast.Sink
/-!
A subscriber: who it is, what it wants to see, where its batches are written to, how far it has been
served, and its queue. A subscriber is registered first, may be activated once, and is removed once
and for all.
-/

namespace Multicast

/-- The place of a subscriber in the order of registration. -/
abbrev SessionId := Nat

/-- What is known about a subscriber when it asks to be registered. -/
structure Subscription where
  /-- Who is at the other end, for the log. -/
  peer : String := "anonymous"
  keys : List String := []
  /-- The name of the signal by which the connection is cancelled, if there is one. -/
  token : Option String := none
  /-- Which live items the subscriber wants to see. -/
  filter : Item Nat → Bool := fun _ => true
  sink : Sink := .scripted []

/-- The stages of the life of a subscriber. -/
inductive Stage
  | registered
  | active
  | removed
  deriving DecidableEq, Repr, Inhabited

namespace Stage

def name : Stage → String
  | .registered => "registered"
  | .active => "active"
  | .removed => "removed"

def all : List Stage := [.registered, .active, .removed]

end Stage

/-- Where a delivery stands that has passed the test for stale data. -/
inductive DeliveryPoint
  | writing (point : WritePoint)
  /-- The write has failed, the subscriber is removed and the callback for that runs. -/
  | removing (hook : HookRun)
  deriving DecidableEq, Repr

/-- A delivery under way. -/
structure Delivery where
  kind : DeliveryKind
  /-- Whether it only shows that the connection lives, and leaves the cursor alone. -/
  keepAlive : Bool
  frame : Batch Nat
  begun : Nat
  point : DeliveryPoint
  deriving DecidableEq, Repr

/-- A subscriber that has been registered. -/
structure Session where
  peer : String
  keys : List String
  token : Option String
  filter : Item Nat → Bool
  sink : Sink
  stage : Stage := .registered
  /-- Whether those who wait for the removal have been told. -/
  completed : Bool := false
  cursor : Cursor Nat := .new
  /-- The last batch written that was no keep-alive. -/
  lastSent : Option (Batch Nat) := none
  writes : Nat := 0
  queue : Queue Nat
  worker : WorkerPoint Delivery := .absent

namespace Session

/-- A new subscriber whose queue has room for `n` batches. -/
def ofSubscription (s : Subscription) (n : Nat) : Session where
  peer := s.peer
  keys := s.keys
  token := s.token
  filter := s.filter
  sink := s.sink
  queue := .ofCapacity n

/-- Whether the subscriber wants to see every item of the batch. -/
def accepts (s : Session) (b : Batch Nat) : Bool := b.items.all s.filter

/-- Starts the queue of a subscriber that is registered; any other refuses. -/
def activate (s : Session) : Session × Bool :=
  match s.stage with
  | .registered =>
    match s.queue.start with
    | (q, true) => ({ s with stage := .active, queue := q, worker := .fresh }, true)
    -- the stage moves on even if the queue would not start
    | (q, false) => ({ s with stage := .active, queue := q }, false)
  | .active | .removed => (s, false)

/-- Takes leave of the subscriber: those who wait for it are told and the queue closes. -/
def remove (s : Session) : Session :=
  { s with stage := .removed, completed := true, queue := s.queue.close }

def recordWrite (s : Session) : Session := { s with writes := s.writes + 1 }

/-- A batch with data has been delivered: the cursor moves up to its last id. -/
def recordDelivery (s : Session) (frame : Batch Nat) : Session :=
  { s with
    cursor := match frame.lastId? with
      | some id => (s.cursor.advance id).1
      -- the frame may be empty although the batch was not
      | none => s.cursor
    lastSent := some frame }

def enqueue (s : Session) (b : Batch Nat) : Session × Bool :=
  let (q, ok) := s.queue.enqueue b
  ({ s with queue := q }, ok)

/-- The frame of a ping: what was sent last, or nothing. -/
def pingFrame (s : Session) : Batch Nat := s.lastSent.getD .empty

end Session

end Multicast
