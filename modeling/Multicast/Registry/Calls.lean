import Multicast.Registry.Delivery
/-!
The calls on a registry and the passes of its loops. A function named for a call does what happens
at once when the call is made and adds the call to the list; the functions with `Step` let a call go
on that need not wait.
-/

namespace Multicast

def Farewell.sleepsUntil : Farewell → Option Nat
  | .saying hook => some hook.moment
  | _ => none

def PingPoint.sleepsUntil : PingPoint → Option Nat
  | .waiting d => d.sleepsUntil
  | .answered _ => none

/-- The moment of the next pass after one that begins now: the first multiple of the period after
now, counted from the moment at which this pass was due. -/
def Loop.after {π : Type} (l : Loop π) (now : Nat) : Nat :=
  now + l.period - (now - l.next) % l.period

/-- The first moment of the clock at which the next pass is due. -/
def Loop.moment {π : Type} (l : Loop π) : Nat := (l.next + 999999) / 1000000

namespace Registry

/-! ### Registration -/

def subscribe (r : Registry) (request : Subscription) : Registry :=
  if r.stopped then r.addCall (.returned (.error .stopped))
  else
    (r.note (.beforeRegistered request.peer request.keys)).addCall
      (.subscribing request ⟨r.now, r.hooks.before request⟩)

/-- Puts a new subscriber at the end of the set. -/
def enrol (r : Registry) (request : Subscription) : Registry × SessionId :=
  let s := r.sessions.length
  let r := { r with
    sessions := r.sessions ++ [Session.ofSubscription request r.config.queueCapacity]
    members := r.members ++ [s] }
  let r := r.count (·.setSessions r.members.length)
  (r.note (.registered (r.nameOf s) request.keys r.members.length), s)

/-- What a registration comes to when its callback has gone on. -/
def subscribeStep (r : Registry) (i : Nat) (request : Subscription) (hook : HookRun) : Registry :=
  match hook.step r.now with
  | .running hook => r.setCall i (.subscribing request hook)
  | .crashed => r.setCall i .crashed
  | .done (.error e) => r.setCall i (.returned (.error (.hook e)))
  | .done (.ok ()) =>
    -- the registry may have been stopped while the callback ran
    if r.stopped then r.setCall i (.returned (.error .stopped))
    else
      let (r, s) := r.enrol request
      r.setCall i (.returned (.ok (.subscribed s)))

def activate (r : Registry) (s : SessionId) : Registry × Bool :=
  match r.session? s with
  | none => (r, false)
  | some x =>
    match x.activate with
    | (y, true) => ((r.update s fun _ => y).note (.activated (r.nameOf s) y.queue.size), true)
    | (y, false) => (r.update s fun _ => y, false)

/-! ### Publishing -/

/-- Offers a live batch to one subscriber; the answer says whether its queue took it. -/
def offer (r : Registry) (b : Batch Nat) (s : SessionId) : Registry × Bool :=
  match r.session? s with
  | none => (r, false)
  | some x =>
    if r.isCancelled s || !x.accepts b then (r, false)
    else
      match x.enqueue b with
      | (y, true) => ((r.update s fun _ => y).note (.enqueued (r.nameOf s) b), true)
      | (_, false) => (r, false)

/-- Offers a live batch to subscribers in turn; the answer is how many queues took it. -/
def offerAll (b : Batch Nat) : List SessionId → Registry → Registry × Nat
  | [], r => (r, 0)
  | s :: rest, r =>
    match r.offer b s with
    | (r, true) => let (r, n) := offerAll b rest r; (r, n + 1)
    | (r, false) => offerAll b rest r

def publishLive (r : Registry) (b : Batch Nat) : Registry × Except RegistryError Nat :=
  if b.size = 1 then
    let (r, routed) := offerAll b r.members r
    (r.count (·.batchPublished .live routed), .ok routed)
  else (r, .error (.invalidBatch b.size))

/-- Goes on with a backfill: the first subscriber that is not cancelled and whose queue is open is
next. -/
def nextBackfill (r : Registry) (p : Party) (b : Batch Nat) (attempted : Nat) :
    List SessionId → Registry × Progress Backfill Nat
  | [] => (r.count (·.batchPublished .historical attempted), .done attempted)
  | s :: rest =>
    if r.isCancelled s then r.nextBackfill p b attempted rest
    else
      match r.askGate s p with
      | (r', true) =>
        (r', .running {
          batch := b
          current := { session := s, batch := b, kind := .historical }
          rest := rest
          attempted := attempted })
      -- a closed queue is passed over and not counted
      | (_, false) => r.nextBackfill p b attempted rest

def backfillStep (r : Registry) (p : Party) (b : Backfill) : Registry × Progress Backfill Nat :=
  match r.directStep p b.current with
  | (r, .running d) => (r, .running { b with current := d })
  | (r, .crashed) => (r, .crashed)
  -- a delivery is counted once it had its turn, whether or not its write succeeded
  | (r, .done reached) =>
    r.nextBackfill p b.batch (if reached then b.attempted + 1 else b.attempted) b.rest

/-- The point of a call that has gone on, `wrap` and `answer` telling what to make of the state in
which it waits and of its result. -/
def settleCall {σ α : Type} (i : Nat) (wrap : σ → Call) (answer : α → Call) :
    Registry × Progress σ α → Registry
  | (r, .running s) => r.setCall i (wrap s)
  | (r, .done a) => r.setCall i (answer a)
  | (r, .crashed) => r.setCall i .crashed

def returnedCount (n : Nat) : Call := .returned (.ok (.count n))

/-- Adds a call that is at its start, and does what it does at once. -/
def startCall (r : Registry) (f : Nat → Registry → Registry) : Registry :=
  -- the point at which the call is added does not matter: `f` sets it
  f r.calls.length (r.addCall .crashed)

def publishHistorical (r : Registry) (b : Batch Nat) : Registry :=
  r.startCall fun i r => settleCall i .backfilling returnedCount
    (r.nextBackfill (.call i) b 0 r.members)

/-- What a single direct delivery returns: it is counted as published. -/
def sent (i : Nat) : Registry × Progress Direct Bool → Registry
  | (r, .running d) => r.setCall i (.sending d)
  | (r, .crashed) => r.setCall i .crashed
  | (r, .done reached) =>
    (r.count (·.batchPublished .historical (if reached then 1 else 0))).setCall i
      (.returned (.ok (.flag reached)))

/-- Sends a batch to one subscriber past its queue. -/
def sendHistorical (r : Registry) (s : SessionId) (b : Batch Nat) : Registry :=
  r.startCall fun i r =>
    if r.isCancelled s then r.setCall i (.returned (.ok (.flag false)))
    else
      match r.askGate s (.call i) with
      | (r, true) => r.setCall i (.sending { session := s, batch := b, kind := .historical })
      | (r, false) => sent i (r, .done false)

/-! ### Taking leave -/

/-- Lets taking leave of a subscriber go on. -/
def farewellStep (r : Registry) (s : SessionId) :
    Farewell → Registry × Progress Farewell (Except HookError Unit)
  | .fresh =>
    match r.session? s with
    | none => (r, .crashed)
    | some x =>
      -- the queue is closed already; what matters is who waits for the worker, and nobody calls from
      -- within a write of the worker, which could not wait for its own end
      let (q, waits) := x.queue.close.join
      let r := r.updateQueue s fun _ => q
      if waits then (r, .running .joining)
      else
        let (r, hook) := r.callAfter s
        (r, .running (.saying hook))
  | .joining =>
    -- a worker that has crashed is noted, and the callback runs all the same
    let r := match (r.session? s).map Session.worker with
      | some .crashed => r.note (.workerLost (r.nameOf s))
      | _ => r
    let (r, hook) := r.callAfter s
    (r, .running (.saying hook))
  | .saying hook =>
    match hook.step r.now with
    | .running hook => (r, .running (.saying hook))
    | .crashed => (r, .crashed)
    | .done result => (r, .done result)

/-- Whether taking leave need not wait any longer. -/
def farewellReady (r : Registry) (s : SessionId) : Farewell → Bool
  | .fresh => true
  | .joining => ((r.session? s).map (·.worker.isOver)).getD false
  | .saying hook => hook.ready r.now

/-- What a removal comes to when taking leave has gone on. -/
def unsubscribeProgress (i : Nat) (s : SessionId) :
    Registry × Progress Farewell (Except HookError Unit) → Registry
  | (r, .running f) => r.setCall i (.unsubscribing s f)
  | (r, .crashed) => r.setCall i .crashed
  | (r, .done (.ok ())) =>
    (r.note (.afterReturned (r.nameOf s) true)).setCall i (.returned (.ok (.flag true)))
  | (r, .done (.error e)) =>
    (r.note (.afterReturned (r.nameOf s) false)).setCall i (.returned (.error (.hook e)))

def unsubscribe (r : Registry) (s : SessionId) : Registry :=
  r.startCall fun i r =>
    match r.detach s .unsubscribed with
    | (r, false) => r.setCall i (.returned (.ok (.flag false)))
    | (r, true) => unsubscribeProgress i s (r.farewellStep s .fresh)

/-! ### Sweeps -/

/-- Goes on with a sweep: the first subscriber that can still be removed is next. -/
def nextSweep (r : Registry) (removed : Nat) : List SessionId → Registry × Progress SweepPass Nat
  | [] => (if removed > 0 then r.note (.swept removed) else r, .done removed)
  | s :: rest =>
    match r.detach s .cancelled with
    | (r, true) =>
      let (r, hook) := r.callAfter s
      (r, .running { session := s, hook := hook, rest := rest, removed := removed })
    -- somebody else has removed it since the sweep began
    | (_, false) => r.nextSweep removed rest

/-- Begins a sweep of the subscribers that are cancelled now. -/
def beginSweep (r : Registry) : Registry × Progress SweepPass Nat :=
  r.nextSweep 0 (r.members.filter r.isCancelled)

def sweepStep (r : Registry) (p : SweepPass) : Registry × Progress SweepPass Nat :=
  match p.hook.step r.now with
  | .running hook => (r, .running { p with hook := hook })
  | .crashed => (r, .crashed)
  | .done result => (r.noteReturn p.session .hookFailed result).nextSweep (p.removed + 1) p.rest

def sweep (r : Registry) : Registry :=
  r.startCall fun i r => settleCall i .sweeping returnedCount r.beginSweep

/-! ### Pings -/

/-- The pings of a round ask for the gates of their subscribers, each with the frame that the
subscriber would get now. -/
def askPings (r : Registry) (p : Party) : List SessionId → Registry × List PingPoint
  | [] => (r, [])
  | s :: rest =>
    let frame := ((r.session? s).map (·.pingFrame)).getD .empty
    match r.askGate s p with
    | (r, true) =>
      let (r, ps) := r.askPings p rest
      (r, .waiting { session := s, batch := frame, kind := .ping } :: ps)
    | (_, false) =>
      let (r, ps) := r.askPings p rest
      (r, .answered false :: ps)

/-- The answers of a round, if all are in. -/
def pingAnswers? : List PingPoint → Option (List Bool)
  | [] => some []
  | .answered b :: rest => (pingAnswers? rest).map (b :: ·)
  | .waiting _ :: _ => none

/-- A round of pings ends when all answers are in. -/
def closePings (r : Registry) (ps : List PingPoint) : Registry × Progress PingPass Nat :=
  match pingAnswers? ps with
  | some answers =>
    let reached := answers.count true
    (r.count (·.pingPass reached), .done reached)
  | none => (r, .running ⟨ps⟩)

/-- Begins a round of pings to the subscribers that are not cancelled. -/
def beginPings (r : Registry) (p : Party) : Registry × Progress PingPass Nat :=
  let (r, ps) := r.askPings p (r.members.filter fun s => !r.isCancelled s)
  r.closePings ps

def abandonPings (r : Registry) (p : Party) : List PingPoint → Registry
  | [] => r
  | .waiting d :: rest => (r.abandon p d).abandonPings p rest
  | .answered _ :: rest => r.abandonPings p rest

/-- Lets the first ping go on that need not wait; without one, nothing changes. A ping that crashes
is reported by `none`. -/
def stepPings (r : Registry) (p : Party) : List PingPoint → Registry × Option (List PingPoint)
  | [] => (r, some [])
  | .answered b :: rest =>
    let (r, ps) := r.stepPings p rest
    (r, ps.map (.answered b :: ·))
  | .waiting d :: rest =>
    if r.directReady p d then
      match r.directStep p d with
      | (r, .running d) => (r, some (.waiting d :: rest))
      | (r, .done b) => (r, some (.answered b :: rest))
      -- the rest of the round is given up with the ping that crashes
      | (r, .crashed) => (r.abandonPings p rest, none)
    else
      match r.stepPings p rest with
      | (r, some ps) => (r, some (.waiting d :: ps))
      | (r, none) => (r.abandon p d, none)

/-- Whether a ping of the round need not wait. -/
def pingsReady (r : Registry) (p : Party) (pass : PingPass) : Bool :=
  pass.pings.any fun
    | .waiting d => r.directReady p d
    | .answered _ => false

def pingStep (r : Registry) (p : Party) (pass : PingPass) : Registry × Progress PingPass Nat :=
  match r.stepPings p pass.pings with
  | (r, some ps) => r.closePings ps
  | (r, none) => (r, .crashed)

def ping (r : Registry) : Registry :=
  r.startCall fun i r => settleCall i .pinging returnedCount (r.beginPings (.call i))

/-! ### The loops -/

/-- Puts the sweep loop to the point at which a pass leaves it. -/
def sweepLoopProgress (i : Nat) (l : Loop SweepPass) : Registry × Progress SweepPass Nat → Registry
  | (r, .running pass) => r.setCall i (.sweepLoop { l with pass := some pass })
  | (r, .done _) => r.setCall i (.sweepLoop { l with pass := none })
  | (r, .crashed) => r.setCall i .crashed

def sweepTick (r : Registry) (i : Nat) (l : Loop SweepPass) : Registry :=
  sweepLoopProgress i { l with next := l.after r.nanos } r.beginSweep

def sweepLoopStep (r : Registry) (i : Nat) (l : Loop SweepPass) : Registry :=
  match l.pass with
  | some pass => sweepLoopProgress i l (r.sweepStep pass)
  | none =>
    if r.stopped then (r.note (.loopCancelled .sweep)).setCall i (.returned (.ok .nothing))
    else r.sweepTick i l

/-- Puts the ping loop to the point at which a round leaves it. -/
def pingLoopProgress (i : Nat) (l : Loop PingPass) : Registry × Progress PingPass Nat → Registry
  | (r, .running pass) => r.setCall i (.pingLoop { l with pass := some pass })
  | (r, .done n) => (r.note (.pingPassFinished n)).setCall i (.pingLoop { l with pass := none })
  | (r, .crashed) => r.setCall i .crashed

def pingTick (r : Registry) (i : Nat) (l : Loop PingPass) : Registry :=
  pingLoopProgress i { l with next := l.after r.nanos } (r.beginPings (.call i))

def pingLoopStep (r : Registry) (i : Nat) (l : Loop PingPass) : Registry :=
  match l.pass with
  | some pass => pingLoopProgress i l (r.pingStep (.call i) pass)
  | none =>
    if r.stopped then (r.note (.loopCancelled .ping)).setCall i (.returned (.ok .nothing))
    else r.pingTick i l

/-! ### Stopping -/

/-- Takes leave of subscribers in turn; the answer holds those that were not removed yet. -/
def markAllRemoved : List SessionId → Registry → Registry × List SessionId
  | [], r => (r, [])
  | s :: rest, r =>
    match r.markRemoved s with
    | (r, true) => let (r, ss) := markAllRemoved rest r; (r, s :: ss)
    | (r, false) => markAllRemoved rest r

/-- Empties the set; the answer holds the subscribers that were in it. -/
def evacuate (r : Registry) : Registry × List SessionId :=
  markAllRemoved r.members { r with stopped := true, members := [] }

/-- Calls for the registry to stop. The farewells are calls of their own, after this one. -/
def stop (r : Registry) : Registry :=
  if r.stopped then r.addCall (.returned (.ok .nothing))
  else
    let (r, removed) := r.evacuate
    let r := r.count fun m =>
      (m.setSessions 0).sessionsRemoved .shutdown removed.length
    -- the number of this call is the length; its farewells come right after
    let first := r.calls.length + 1
    let r := r.addCall (.stopping {
      count := removed.length
      deadline := r.now + r.config.removalTimeout.millis
      waiting := (List.range removed.length).map (first + ·) })
    { r with calls := r.calls ++ removed.map (.farewell · .fresh) }

/-- Whether a call has come to its end. -/
def isOver (r : Registry) (i : Nat) : Bool :=
  match r.calls[i]? with
  | some (.returned _) | some .crashed | none => true
  | _ => false

/-- Notes for each of the calls that has crashed that it has. -/
def noteCrashes : List Nat → Registry → Registry
  | [], r => r
  | i :: rest, r =>
    match r.calls[i]? with
    | some .crashed => noteCrashes rest (r.note .farewellCrashed)
    | _ => noteCrashes rest r

/-- Whether a call to stop need not wait: a farewell has come to its end, or none is left, or the
time is up. -/
def stopReady (r : Registry) (p : StopPoint) : Bool :=
  p.waiting.isEmpty || p.waiting.any r.isOver || decide (p.deadline ≤ r.now)

def stopStep (r : Registry) (i : Nat) (p : StopPoint) : Registry :=
  let r := noteCrashes (p.waiting.filter r.isOver) r
  let waiting := p.waiting.filter fun j => !r.isOver j
  -- farewells that end at the deadline itself still count
  if waiting.isEmpty then (r.note (.stopped p.count)).setCall i (.returned (.ok .nothing))
  else if p.deadline ≤ r.now then
    (r.note (.stopTimedOut p.count waiting.length r.config.removalTimeout.seconds)).setCall i
      (.returned (.ok .nothing))
  else r.setCall i (.stopping { p with waiting := waiting })

/-- What a farewell comes to when it has gone on. -/
def farewellProgress (i : Nat) (s : SessionId) :
    Registry × Progress Farewell (Except HookError Unit) → Registry
  | (r, .running f) => r.setCall i (.farewell s f)
  | (r, .crashed) => r.setCall i .crashed
  | (r, .done result) =>
    (r.noteReturn s .farewellFailed result).setCall i (.returned (.ok .nothing))

/-- The last one who holds the registry lets it go. -/
def drop (r : Registry) : Registry :=
  if r.stopped then r
  else
    let count := r.members.length
    r.evacuate.1.note (.dropped count)

/-- Calls for the moment at which a subscriber is removed. -/
def awaitRemoval (r : Registry) (s : SessionId) : Registry := r.addCall (.awaitingRemoval s)

end Registry

end Multicast
