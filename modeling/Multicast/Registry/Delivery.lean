import Multicast.Registry.Basic
/-!
The delivery of one batch to one subscriber, and the direct deliveries that go past its queue.

Whoever delivers holds the gate of the subscriber. `Registry.beginDelivery` drops what is stale and
begins the write of anything else; `Registry.deliveryStep` lets the write, or the callback after a
failed one, go on. A keep-alive is never stale and leaves the cursor alone.
-/

namespace Multicast

def Delivery.sleepsUntil (d : Delivery) : Option Nat :=
  match d.point with
  | .writing point => point.sleepsUntil
  | .removing hook => some hook.moment

/-- The moment until which a direct delivery sleeps. -/
def Direct.sleepsUntil (d : Direct) : Option Nat := d.delivery.bind Delivery.sleepsUntil

namespace Registry

/-- Whether the data of a batch counts as delivered to the subscriber already. -/
def isStale (r : Registry) (x : Session) (b : Batch Nat) : Bool :=
  x.cursor.isStale r.config.stalePolicy b.ids

def finishDelivery (r : Registry) (s : SessionId) (o : DeliveryOutcome) :
    Registry × Progress Delivery DeliveryOutcome :=
  (r.note (.deliveryFinished (r.nameOf s) o), .done o)

/-- Begins the delivery of a batch to a subscriber. -/
def beginDelivery (r : Registry) (s : SessionId) (p : Party) (b : Batch Nat) (kind : DeliveryKind) :
    Registry × Progress Delivery DeliveryOutcome :=
  match r.session? s with
  | none => (r, .done .stale)
  | some x =>
    let keepAlive := decide (kind = .ping) || b.isPing
    if !keepAlive && r.isStale x b then
      let r := r.note (.staleSkipped (r.nameOf s) kind b x.cursor.position)
      (r.count (·.staleSkip kind)).finishDelivery s .stale
    else
      -- staleness was judged by the batch; the cursor will follow the frame
      let frame := r.hooks.process x b
      let (sink, point) := x.sink.startWrite r.now p
      let r := r.update s fun x => { x with sink := sink }
      (r.note (.writeBegun (r.nameOf s) kind keepAlive frame),
        .running {
          kind := kind
          keepAlive := keepAlive
          frame := frame
          begun := r.now
          point := .writing point })

def writeSucceeded (r : Registry) (s : SessionId) (d : Delivery) :
    Registry × Progress Delivery DeliveryOutcome :=
  let r := r.update s Session.recordWrite
  let r := if d.keepAlive then r else r.update s (·.recordDelivery d.frame)
  let r := r.count (·.batchDelivered d.kind)
  (r.note (.writeSucceeded (r.nameOf s) d.kind d.keepAlive d.frame)).finishDelivery s .written

/-- The write of a delivery has failed: the subscriber is removed, unless it is already. -/
def writeFailed (r : Registry) (s : SessionId) (d : Delivery) (e : SinkError) :
    Registry × Progress Delivery DeliveryOutcome :=
  let r := (r.note (.writeFailed (r.nameOf s) d.kind e)).count (·.sinkFailure d.kind)
  match r.detach s .sinkFailure with
  | (r, true) =>
    let (r, hook) := r.callAfter s
    (r, .running { d with point := .removing hook })
  | (r, false) => r.finishDelivery s .failed

/-- Whether a delivery under way need not wait any longer. -/
def deliveryReady (r : Registry) (s : SessionId) (p : Party) (d : Delivery) : Bool :=
  match d.point with
  | .writing point =>
    match r.session? s with
    | some x => x.sink.ready r.now p point
    | none => false
  | .removing hook => hook.ready r.now

/-- Lets a delivery that need not wait go on. -/
def deliveryStep (r : Registry) (s : SessionId) (p : Party) (d : Delivery) :
    Registry × Progress Delivery DeliveryOutcome :=
  match d.point with
  | .writing point =>
    match r.session? s with
    | none => (r, .crashed)
    | some x =>
      let (sink, progress) := x.sink.step r.now p d.frame point
      let r := r.update s fun x => { x with sink := sink }
      match progress with
      | .running point => (r, .running { d with point := .writing point })
      -- a crash is not a failed write: the subscriber stays and nothing is counted
      | .crashed => (r.note (.writeCrashed (r.nameOf s) d.kind d.keepAlive d.frame), .crashed)
      | .done result =>
        let r := r.count (·.writeTook d.kind (.ofMillis (r.now - d.begun)))
        match result with
        | .ok () => r.writeSucceeded s d
        | .error e => r.writeFailed s d e
  | .removing hook =>
    match hook.step r.now with
    | .running hook => (r, .running { d with point := .removing hook })
    | .crashed => (r, .crashed)
    | .done result => (r.noteReturn s .hookFailed result).finishDelivery s .failed

/-! ### Direct deliveries -/

/-- Asks for the gate of a subscriber; the answer says whether its queue is open. -/
def askGate (r : Registry) (s : SessionId) (p : Party) : Registry × Bool :=
  match r.session? s with
  | none => (r, false)
  | some x =>
    match x.queue.ask p with
    | (q, true) => (r.updateQueue s fun _ => q, true)
    | (_, false) => (r, false)

/-- Whether a direct delivery need not wait any longer. -/
def directReady (r : Registry) (p : Party) (d : Direct) : Bool :=
  match d.delivery with
  | some run => r.deliveryReady d.session p run
  | none =>
    match r.session? d.session with
    | some x => x.queue.gate.holds p
    | none => false

/-- What a direct delivery comes to when its delivery has gone on: at the end the gate is given
back. -/
def directProgress (p : Party) (d : Direct) :
    Registry × Progress Delivery DeliveryOutcome → Registry × Progress Direct Bool
  | (r, .running run) => (r, .running { d with delivery := some run })
  -- even a stale or failed delivery has had its turn
  | (r, .done _) => (r.leave d.session p, .done true)
  | (r, .crashed) => (r.leave d.session p, .crashed)

/-- Lets a direct delivery that need not wait go on. It answers whether it came to the delivery, or
found the queue closed. -/
def directStep (r : Registry) (p : Party) (d : Direct) : Registry × Progress Direct Bool :=
  match d.delivery with
  | some run => directProgress p d (r.deliveryStep d.session p run)
  | none =>
    match r.session? d.session with
    | none => (r, .done false)
    | some x =>
      -- the queue may have closed while the delivery stood in line
      if x.queue.closed then (r.leave d.session p, .done false)
      else directProgress p d (r.beginDelivery d.session p d.batch d.kind)

def abandon (r : Registry) (p : Party) (d : Direct) : Registry :=
  (r.update d.session fun x => { x with sink := x.sink.giveUp p }).leave d.session p

/-! ### The workers -/

/-- Puts the worker of a subscriber to another point. -/
def setWorker (r : Registry) (s : SessionId) (w : WorkerPoint Delivery) : Registry :=
  r.update s fun x => { x with worker := w }

/-- The worker of a subscriber comes to the head of its loop. -/
def workerTurn (r : Registry) (s : SessionId) : Registry :=
  match r.session? s with
  | none => r
  | some x =>
    match x.queue.workerTurn with
    | (q, true) => (r.updateQueue s fun _ => q).setWorker s .inLine
    | (_, false) => (r.setWorker s .stopped).note (.workerStopped (r.nameOf s))

/-- What a worker comes to when its delivery has gone on. -/
def workerProgress (s : SessionId) : Registry × Progress Delivery DeliveryOutcome → Registry
  | (r, .running run) => r.setWorker s (.delivering run)
  -- direct deliveries that stand in line come first
  | (r, .done _) => (r.leave s .worker).workerTurn s
  | (r, .crashed) => (r.leave s .worker).setWorker s .crashed

/-- Whether the worker of a subscriber need not wait. -/
def workerReady (r : Registry) (s : SessionId) : Bool :=
  match r.session? s with
  | none => false
  | some x => x.queue.workerReady (r.deliveryReady s .worker) x.worker

/-- Lets the worker of a subscriber go on. -/
def workerStep (r : Registry) (s : SessionId) : Registry :=
  match r.session? s with
  | none => r
  | some x =>
    match x.worker with
    | .fresh => (r.note (.workerStarted (r.nameOf s))).workerTurn s
    | .inLine =>
      match x.queue.takeNext with
      | (q, some b) =>
        workerProgress s ((r.updateQueue s fun _ => q).beginDelivery s .worker b .live)
      | (q, none) => (r.updateQueue s fun _ => q).setWorker s .asleep
    | .delivering run => workerProgress s (r.deliveryStep s .worker run)
    | .asleep =>
      if x.queue.closed then (r.setWorker s .stopped).note (.workerStopped (r.nameOf s))
      else (r.updateQueue s fun q => { q with signal := q.signal.resume }).workerTurn s
    | .absent | .stopped | .crashed => r

end Registry

end Multicast
