import Multicast.Proofs.Gate
import Multicast.Proofs.Isolation.Within
import Multicast.Proofs.Registry.Backlog
import Multicast.Proofs.Registry.Delivery

/-! The worker of a subscriber at its work, where nobody else deals with the subscriber and every
write succeeds. Each step keeps the backlog on course: what is pending is taken in order, and is
written or skipped. -/

namespace Multicast

/-! ### Writes that succeed -/

/-- Whether a write with this outcome succeeds in the end, if it is let go on where it is held. -/
def WriteOutcome.succeeds : WriteOutcome → Bool
  | .ok | .hold => true
  | .fail _ | .crash => false
  | .delay _ next => next.succeeds

namespace Sink

/-- Whether all writes to the sink succeed, while nobody is about to send. -/
def Succeeds : Sink → Prop
  | .scripted outcomes => ∀ o ∈ outcomes, o.succeeds = true
  | .channel c => c.closed = false ∧ 0 < c.capacity ∧ c.senders = []

instance (k : Sink) : Decidable k.Succeeds :=
  match k with
  | .scripted outcomes => inferInstanceAs (Decidable (∀ o ∈ outcomes, o.succeeds = true))
  | .channel c => inferInstanceAs (Decidable (c.closed = false ∧ 0 < c.capacity ∧ c.senders = []))

/-- Whether the write of the worker that stands at the point succeeds, and all after it. -/
def Writes (k : Sink) : WritePoint → Prop
  | .playing _ o => k.Succeeds ∧ o.succeeds = true
  | .held => k.Succeeds
  | .sending =>
    match k with
    | .scripted _ => False
    | .channel c => c.closed = false ∧ 0 < c.capacity ∧ c.senders = [.worker]

variable {k : Sink} {point : WritePoint} {now : Nat} {b : Batch Nat}

theorem Succeeds.startWrite (h : k.Succeeds) (now : Nat) :
    (k.startWrite now .worker).1.Writes (k.startWrite now .worker).2 := by
  cases k with
  | scripted outcomes =>
    have htail : ∀ o ∈ outcomes.tail, o.succeeds = true := fun o ho => h o (List.mem_of_mem_tail ho)
    cases outcomes with
    | nil => exact ⟨htail, rfl⟩
    | cons o rest => exact ⟨htail, h o List.mem_cons_self⟩
  | channel c =>
    obtain ⟨hopen, hroom, hnobody⟩ := h
    refine ⟨hopen, hroom, ?_⟩
    show c.senders ++ [.worker] = [.worker]
    rw [hnobody, List.nil_append]

/-- A channel that is open takes what the worker sends. -/
theorem Writes.send {c : Channel (Batch Nat)} (h : (channel c).Writes .sending) (now : Nat)
    (b : Batch Nat) :
    ∃ k, (channel c).step now .worker b .sending = (k, .done (.ok ())) ∧ k.Succeeds := by
  obtain ⟨hopen, hroom, hsenders⟩ := h
  have hsent := Channel.send_of_open (p := .worker) b hopen
  have hnobody : c.senders.erase .worker = [] := by
    rw [hsenders]
    rfl
  refine ⟨.channel { c with senders := c.senders.erase .worker, buffer := c.buffer ++ [b] }, ?_,
    hopen, hroom, hnobody⟩
  simp only [Sink.step, hsent]

/-- A write goes on, or it succeeds. -/
theorem Writes.step (h : k.Writes point) (now : Nat) (b : Batch Nat) :
    (∃ k' point', k.step now .worker b point = (k', .running point') ∧ k'.Writes point') ∨
      ∃ k', k.step now .worker b point = (k', .done (.ok ())) ∧ k'.Succeeds := by
  cases point with
  | playing moment o =>
    obtain ⟨hk, ho⟩ := h
    cases o with
    | ok => exact .inr ⟨k, rfl, hk⟩
    | hold => exact .inl ⟨k, .held, rfl, hk⟩
    | delay ms next => exact .inl ⟨k, _, rfl, hk, ho⟩
    | fail e => cases ho
    | crash => cases ho
  | held => exact .inl ⟨k, .held, rfl, h⟩
  | sending =>
    cases k with
    | scripted outcomes => exact h.elim
    | channel c => exact .inr (h.send now b)

/-- What is received changes nothing but the buffer. -/
theorem writes_receive {c c' : Channel (Batch Nat)} (h : c.receive? = some (b, c')) :
    (Succeeds (.channel c) → Succeeds (.channel c')) ∧
      ∀ point, Writes (.channel c) point → Writes (.channel c') point := by
  obtain ⟨rest, -, rfl⟩ := Channel.exists_of_receive? h
  refine ⟨id, fun point => ?_⟩
  cases point <;> exact id

end Sink

/-- What may happen while a subscriber is left to its worker: the worker goes on, time passes, a
write that is held goes on and will succeed, and what has been sent is received. -/
def Action.Serves (s : SessionId) : Action → Prop
  | .run (.worker t) => t = s
  | .elapse _ => True
  | .release t o => t = s ∧ o.succeeds = true
  | .receive t => t = s
  | _ => False

/-! ### Where the worker stands -/

/-- A subscriber that has been served so far as told, with no write under way; it had `base` writes
in the beginning. -/
structure Session.UpToDate (base : Nat) (w : Service) (y : Session) : Prop where
  sink : y.sink.Succeeds
  cursor : y.cursor = w.cursor
  writes : y.writes = base + w.written.length

/-- A subscriber for which the worker writes the batch that was told last. -/
structure Session.Writing (base : Nat) (w : Service) (y : Session) (d : Delivery)
    (point : WritePoint) : Prop where
  kind : d.kind = .live
  keepAlive : d.keepAlive = false
  stands : d.point = .writing point
  sink : y.sink.Writes point
  cursor : y.cursor.follow d.frame = w.cursor
  writes : y.writes + 1 = base + w.written.length

/-- Where the worker of a subscriber stands that is served by nobody else. -/
inductive Session.Served (base : Nat) (w : Service) (y : Session) : Prop
  | fresh (hw : y.worker = .fresh) (hg : y.queue.gate.line = []) (h : y.UpToDate base w)
  | inLine (hw : y.worker = .inLine) (hg : y.queue.gate.line = [.worker]) (h : y.UpToDate base w)
  | writing (d : Delivery) (point : WritePoint) (hw : y.worker = .delivering d)
      (hg : y.queue.gate.line = [.worker]) (h : y.Writing base w d point)
  | asleep (hw : y.worker = .asleep) (hg : y.queue.gate.line = []) (he : y.queue.heap.contents = 0)
      (h : y.UpToDate base w)

namespace Session.Served

variable {base : Nat} {w : Service} {y : Session}

theorem of_fresh (h : y.Served base w) (hw : y.worker = .fresh) :
    y.queue.gate.line = [] ∧ y.UpToDate base w := by
  cases h with
  | fresh _ hg hy => exact ⟨hg, hy⟩
  | inLine hw' | writing _ _ hw' | asleep hw' => cases hw.symm.trans hw'

theorem of_inLine (h : y.Served base w) (hw : y.worker = .inLine) :
    y.queue.gate.line = [.worker] ∧ y.UpToDate base w := by
  cases h with
  | inLine _ hg hy => exact ⟨hg, hy⟩
  | fresh hw' | writing _ _ hw' | asleep hw' => cases hw.symm.trans hw'

theorem of_delivering (h : y.Served base w) {d : Delivery} (hw : y.worker = .delivering d) :
    y.queue.gate.line = [.worker] ∧ ∃ point, y.Writing base w d point := by
  cases h with
  | writing d' point hw' hg hy =>
    obtain rfl : d = d' := WorkerPoint.delivering.inj (hw.symm.trans hw')
    exact ⟨hg, point, hy⟩
  | fresh hw' | inLine hw' | asleep hw' => cases hw.symm.trans hw'

theorem of_asleep (h : y.Served base w) (hw : y.worker = .asleep) :
    y.queue.gate.line = [] ∧ y.queue.heap.contents = 0 ∧ y.UpToDate base w := by
  cases h with
  | asleep _ hg he hy => exact ⟨hg, he, hy⟩
  | fresh hw' | inLine hw' | writing _ _ hw' => cases hw.symm.trans hw'

/-- A sink may change that lets the writes succeed as before. -/
theorem sink (h : y.Served base w) {k : Sink} (hs : y.sink.Succeeds → k.Succeeds)
    (hp : ∀ point, y.sink.Writes point → k.Writes point) :
    ({ y with sink := k } : Session).Served base w := by
  cases h with
  | fresh hw hg hy => exact .fresh hw hg { hy with sink := hs hy.sink }
  | inLine hw hg hy => exact .inLine hw hg { hy with sink := hs hy.sink }
  | writing d point hw hg hy => exact .writing d point hw hg { hy with sink := hp point hy.sink }
  | asleep hw hg he hy => exact .asleep hw hg he { hy with sink := hs hy.sink }

end Session.Served

namespace Registry

variable {r u v : Registry} {s : SessionId} {x y z : Session} {fs : List (Batch Nat)} {n : Nat}
  {w : Service}

/-! ### Work that is done for one subscriber -/

/-- In `v` the subscriber `s` is at `y`; since `r` writes of the batches `fs` have begun to it, the
latest first, and `n` live batches have been skipped. -/
structure Attends (s : SessionId) (r v : Registry) (y : Session) (fs : List (Batch Nat)) (n : Nat) :
    Prop where
  session : v.session? s = some y
  config : v.config = r.config
  hooks : v.hooks = r.hooks
  begun : v.begun s = fs.map (Prod.mk .live) ++ r.begun s
  skipped : v.metrics.value (.staleSkips .live) = r.metrics.value (.staleSkips .live) + n

namespace Attends

theorem refl (hx : r.session? s = some x) : Attends s r r x [] 0 := ⟨hx, rfl, rfl, rfl, rfl⟩

theorem update (h : Attends s r v y fs n) (f : Session → Session) :
    Attends s r (v.update s f) (f y) fs n :=
  { h with session := session?_update h.session f }

theorem note (h : Attends s r v y fs n) {e : Event} (he : e.begunTo? s = none) :
    Attends s r (v.note e) y fs n :=
  { h with begun := (List.filterMap_cons_none he).trans h.begun }

theorem begin (h : Attends s r v y fs n) (keepAlive : Bool) (frame : Batch Nat) :
    Attends s r (v.note (.writeBegun (v.nameOf s) .live keepAlive frame)) y (frame :: fs) n := by
  have he : Event.begunTo? s (.writeBegun (v.nameOf s) .live keepAlive frame) =
      some (.live, frame) := if_pos rfl
  exact { h with begun := (List.filterMap_cons_some he).trans (congrArg _ h.begun) }

/-- What is counted is no live batch that was skipped. -/
theorem count (h : Attends s r v y fs n) {f : Metrics → Metrics}
    (hf : ∀ m, (f m).value (.staleSkips .live) = m.value (.staleSkips .live)) :
    Attends s r (v.count f) y fs n :=
  { h with skipped := (hf v.metrics).trans h.skipped }

theorem skip (h : Attends s r v y fs n) :
    Attends s r (v.count (·.staleSkip .live)) y fs (n + 1) := by
  have hadd : (v.metrics.staleSkip .live).value (.staleSkips .live) =
      v.metrics.value (.staleSkips .live) + 1 := by
    rw [Metrics.staleSkip, Metrics.value_add, if_pos rfl]
  exact { h with skipped := hadd.trans (by rw [h.skipped, Nat.add_assoc]) }

/-- The worker comes to the head of its loop while the queue is open. -/
theorem workerTurn (h : Attends s r v y fs n) (hc : y.queue.closed = false) :
    Attends s r (v.workerTurn s) { y with
      queue := { y.queue with gate := y.queue.gate.join .worker }
      worker := .inLine } fs n := by
  have hturn : v.workerTurn s = (v.updateQueue s fun _ =>
      { y.queue with gate := y.queue.gate.join .worker }).setWorker s .inLine := by
    simp only [Registry.workerTurn, h.session, Queue.workerTurn, Queue.ask, hc, Bool.false_eq_true,
      if_false]
  rw [hturn]
  exact (h.update _).update _

/-- A delivery comes to its end: the worker gives the gate back and stands in line again. -/
theorem finish (h : Attends s r v y fs n) (hc : y.queue.closed = false) (o : DeliveryOutcome) :
    Attends s r (workerProgress s (v.finishDelivery s o)) { y with
      queue := { y.queue with gate := (y.queue.gate.leave .worker).join .worker }
      worker := .inLine } fs n :=
  Attends.workerTurn (y := { y with queue := y.queue.leave .worker })
    ((h.note (e := .deliveryFinished (v.nameOf s) o) rfl).update _) hc

theorem succeed (h : Attends s r v y fs n) (hc : y.queue.closed = false) {d : Delivery}
    (hd : d.keepAlive = false) : Attends s r (workerProgress s (v.writeSucceeded s d))
    { y.recordWrite.recordDelivery d.frame with
      queue := { y.queue with gate := (y.queue.gate.leave .worker).join .worker }
      worker := .inLine } fs n := by
  -- what is counted here is not the live batches that were skipped
  have hdelivered (m : Metrics) : (m.batchDelivered d.kind).value (.staleSkips .live) =
      m.value (.staleSkips .live) := by
    rw [Metrics.batchDelivered, Metrics.value_add, if_neg nofun]
  have hrecorded := ((h.update Session.recordWrite).update (·.recordDelivery d.frame)).count
    hdelivered
  simp only [writeSucceeded, hd, Bool.false_eq_true, if_false]
  exact (hrecorded.note rfl).finish hc .written

end Attends

/-! ### One step of the worker -/

/-- The service of the subscriber `s`, which was at `x` in `r` and is at `y` in `v`: the account `w`
tells what has become of the backlog so far. -/
structure Serving (r : Registry) (s : SessionId) (x : Session) (v : Registry) (y : Session)
    (w : Service) : Prop where
  attends : Attends s r v y w.written.reverse w.skipped
  course : w.OnCourse r.config.stalePolicy x.cursor x.queue.heap.toList y.queue.heap.toList
  ordered : y.queue.heap.Ordered
  opened : y.queue.closed = false
  served : y.Served x.writes w

/-- The account stays while nothing is taken and no write ends. -/
theorem Serving.of_same (h : Serving r s x v y w) (ha : Attends s r u z w.written.reverse w.skipped)
    (hheap : z.queue.heap = y.queue.heap) (hopen : z.queue.closed = false)
    (hs : z.Served x.writes w) : Serving r s x u z w := by
  refine ⟨ha, ?_, ?_, hopen, hs⟩
  · rw [hheap]
    exact h.course
  · rw [hheap]
    exact h.ordered

theorem apply_run_of_ready (hready : v.ready (.worker s) = true) :
    v.apply (.run (.worker s)) = v.workerStep s := by
  simp only [apply, hready, if_true, step]

namespace Serving

theorem session? (h : Serving r s x v y w) : v.session? s = some y := h.attends.session

theorem run_fresh (h : Serving r s x v y w) (hw : y.worker = .fresh) :
    ∃ z, Serving r s x (v.apply (.run (.worker s))) z w ∧ z.worker = .inLine ∧
      z.queue.heap = y.queue.heap := by
  obtain ⟨hg, hy⟩ := h.served.of_fresh hw
  have hready : v.ready (.worker s) = true := by
    simp only [ready, workerReady, h.session?, Queue.workerReady, hw]
  have hstep : v.workerStep s = (v.note (.workerStarted (v.nameOf s))).workerTurn s := by
    simp only [workerStep, h.session?, hw]
  have hline : (y.queue.gate.join .worker).line = [.worker] := Gate.line_join_of_nil hg
  have hturned := (h.attends.note (e := .workerStarted (v.nameOf s)) rfl).workerTurn h.opened
  rw [apply_run_of_ready hready, hstep]
  exact ⟨_, h.of_same hturned rfl h.opened (.inLine rfl hline ⟨hy.sink, hy.cursor, hy.writes⟩),
    rfl, rfl⟩

/-- A worker that has been woken comes to the head of its loop. -/
theorem run_asleep (h : Serving r s x v y w) (hw : y.worker = .asleep)
    (hgiven : y.queue.signal.isGiven = true) :
    ∃ z, Serving r s x (v.apply (.run (.worker s))) z w ∧ z.worker = .inLine ∧
      z.queue.heap = y.queue.heap ∧ z.queue.signal = y.queue.signal.resume := by
  obtain ⟨hg, -, hy⟩ := h.served.of_asleep hw
  have hready : v.ready (.worker s) = true := by
    simp only [ready, workerReady, h.session?, Queue.workerReady, hw, hgiven, Bool.or_true]
  have hstep : v.workerStep s =
      (v.updateQueue s fun q => { q with signal := q.signal.resume }).workerTurn s := by
    simp only [workerStep, h.session?, hw, h.opened, Bool.false_eq_true, if_false]
  have hline : (y.queue.gate.join .worker).line = [.worker] := Gate.line_join_of_nil hg
  have hresumed : Attends s r (v.updateQueue s fun q => { q with signal := q.signal.resume })
      { y with queue := { y.queue with signal := y.queue.signal.resume } }
      w.written.reverse w.skipped := h.attends.update _
  rw [apply_run_of_ready hready, hstep]
  exact ⟨_, h.of_same (hresumed.workerTurn h.opened) rfl h.opened
    (.inLine rfl hline ⟨hy.sink, hy.cursor, hy.writes⟩), rfl, rfl, rfl⟩

theorem ready_of_inLine (h : Serving r s x v y w) (hw : y.worker = .inLine) :
    v.ready (.worker s) = true := by
  obtain ⟨hg, -⟩ := h.served.of_inLine hw
  have hholds : y.queue.gate.holds .worker = true := by
    rw [Gate.holds_iff, hg, List.head?_cons]
  simp only [ready, workerReady, h.session?, Queue.workerReady, hw, hholds]

theorem run_inLine_of_empty (h : Serving r s x v y w) (hw : y.worker = .inLine)
    (he : y.queue.heap.contents = 0) :
    ∃ z, Serving r s x (v.apply (.run (.worker s))) z w ∧ z.worker = .asleep ∧
      z.queue.signal = y.queue.signal.await := by
  obtain ⟨hg, hy⟩ := h.served.of_inLine hw
  have hnone : y.queue.heap.pop? = none := (Heap.pop?_eq_none_iff _).mpr he
  have hstep : v.workerStep s = (v.updateQueue s fun _ => { y.queue with
      gate := y.queue.gate.leave .worker
      signal := y.queue.signal.await }).setWorker s .asleep := by
    simp only [workerStep, h.session?, hw, Queue.takeNext, hnone]
  have hline : (y.queue.gate.leave .worker).line = [] := Gate.line_leave_of_alone hg
  have hslept : Attends s r ((v.updateQueue s fun _ => { y.queue with
      gate := y.queue.gate.leave .worker
      signal := y.queue.signal.await }).setWorker s .asleep) { y with
        queue := { y.queue with
          gate := y.queue.gate.leave .worker
          signal := y.queue.signal.await }
        worker := .asleep } w.written.reverse w.skipped := (h.attends.update _).update _
  rw [apply_run_of_ready (h.ready_of_inLine hw), hstep]
  exact ⟨_, h.of_same hslept rfl h.opened
    (.asleep rfl hline he ⟨hy.sink, hy.cursor, hy.writes⟩), rfl, rfl⟩

end Serving

/-! ### A batch in hand -/

/-- The worker of the subscriber `s` has just taken the batch `b`, which comes before all that are
left. -/
structure Taken (r : Registry) (s : SessionId) (x : Session) (v : Registry) (y : Session)
    (b : Batch Nat) (w : Service) : Prop where
  attends : Attends s r v y w.written.reverse w.skipped
  course : w.OnCourse r.config.stalePolicy x.cursor x.queue.heap.toList
    (b :: y.queue.heap.toList)
  least : ∀ d ∈ y.queue.heap.toList, b.rank ≤ d.rank
  ordered : y.queue.heap.Ordered
  opened : y.queue.closed = false
  gate : y.queue.gate.line = [.worker]
  current : y.UpToDate x.writes w

theorem Serving.take (h : Serving r s x v y w) (hw : y.worker = .inLine)
    (he : y.queue.heap.contents ≠ 0) :
    ∃ u z b, Taken r s x u z b w ∧ z.queue.size + 1 = y.queue.size ∧
      v.apply (.run (.worker s)) = workerProgress s (u.beginDelivery s .worker b .live) := by
  obtain ⟨hg, hy⟩ := h.served.of_inLine hw
  obtain ⟨b, rest, hpop, -, hrest, hcontents, hleast⟩ := h.ordered.exists_pop? he
  have hstep : v.workerStep s = workerProgress s
      ((v.updateQueue s fun _ => { y.queue with heap := rest }).beginDelivery
        s .worker b .live) := by
    simp only [workerStep, h.session?, hw, Queue.takeNext, hpop, h.opened, Bool.false_eq_true,
      if_false]
  -- the account takes the list of the pending batches with the one that is taken in front
  have hperm : y.queue.heap.toList.Perm (b :: rest.toList) := Multiset.coe_eq_coe.mp hcontents
  have hsize : rest.size + 1 = y.queue.heap.size := by
    rw [← Heap.card_contents, ← Heap.card_contents, hcontents, Multiset.card_cons]
  have htaken : Taken r s x (v.updateQueue s fun _ => { y.queue with heap := rest })
      { y with queue := { y.queue with heap := rest } } b w := {
    attends := h.attends.update _
    course := h.course.perm hperm
    least := fun d hd => hleast d (hperm.mem_iff.mpr (List.mem_cons_of_mem b hd))
    ordered := hrest
    opened := h.opened
    gate := hg
    current := ⟨hy.sink, hy.cursor, hy.writes⟩ }
  refine ⟨_, _, b, htaken, hsize, ?_⟩
  rw [apply_run_of_ready (h.ready_of_inLine hw), hstep]

namespace Taken

variable {b : Batch Nat}

theorem isData (h : Taken r s x v y b w) :
    (decide (DeliveryKind.live = .ping) || b.isPing) = false := by
  obtain ⟨item, rfl⟩ := Batch.exists_item_of_size (h.course.single b List.mem_cons_self)
  rfl

theorem isStale_eq (h : Taken r s x v y b w) :
    v.isStale y b = y.cursor.isStale r.config.stalePolicy b.ids := by
  rw [Registry.isStale, h.attends.config]

/-- A batch that is stale is skipped, and the worker stands in line for the next one. -/
theorem skip (h : Taken r s x v y b w)
    (hstale : y.cursor.isStale r.config.stalePolicy b.ids = true) :
    ∃ z w', Serving r s x (workerProgress s (v.beginDelivery s .worker b .live)) z w' ∧
      z.worker = .inLine ∧ z.queue.heap = y.queue.heap := by
  have hskipped : Attends s r ((v.note (.staleSkipped (v.nameOf s) .live b y.cursor.position)).count
      (·.staleSkip .live)) y w.written.reverse (w.skipped + 1) := (h.attends.note rfl).skip
  have hnext := h.course.skip (h.current.cursor ▸ hstale)
  have hfinished := hskipped.finish h.opened .stale
  rw [beginDelivery_of_stale h.attends.session h.isData (h.isStale_eq.trans hstale)]
  exact ⟨_, { w with skipped := w.skipped + 1 }, ⟨hfinished, hnext, h.ordered, h.opened,
    .inLine rfl (Gate.line_join_of_nil (Gate.line_leave_of_alone h.gate))
      ⟨h.current.sink, h.current.cursor, h.current.writes⟩⟩, rfl, rfl⟩

theorem begin (h : Taken r s x v y b w) (hid : ∀ x b, r.hooks.process x b = b)
    (hfresh : y.cursor.isStale r.config.stalePolicy b.ids = false) :
    ∃ z w', Serving r s x (workerProgress s (v.beginDelivery s .worker b .live)) z w' ∧
      (∃ d, z.worker = .delivering d) ∧ z.queue.heap = y.queue.heap := by
  -- the hook leaves the batch as it is, so that the cursor will follow the batch itself
  have hframe : v.hooks.process y b = b := by
    rw [h.attends.hooks, hid]
  have hstarted : Attends s r (v.update s fun x =>
      { x with sink := (y.sink.startWrite v.now .worker).1 })
      { y with sink := (y.sink.startWrite v.now .worker).1 } w.written.reverse w.skipped :=
    h.attends.update _
  have hbegun := (hstarted.begin false b).update fun x => { x with worker := .delivering {
    kind := .live
    keepAlive := false
    frame := b
    begun := v.now
    point := .writing (y.sink.startWrite v.now .worker).2 } }
  have hnext := h.course.write (h.current.cursor ▸ hfresh) h.least
  rw [beginDelivery_of_fresh h.attends.session h.isData (.inr (h.isStale_eq.trans hfresh)), hframe]
  rw [← List.reverse_concat] at hbegun
  refine ⟨_, { w with written := w.written ++ [b], cursor := w.cursor.follow b },
    ⟨hbegun, hnext, h.ordered, h.opened, .writing _ _ rfl h.gate {
      kind := rfl
      keepAlive := rfl
      stands := rfl
      sink := h.current.sink.startWrite v.now
      cursor := congrArg (Cursor.follow · b) h.current.cursor
      writes := ?_ }⟩, ⟨_, rfl⟩, rfl⟩
  dsimp only
  rw [List.length_append, List.length_singleton, ← Nat.add_assoc, ← h.current.writes]

end Taken

/-- A worker that finds something skips it or begins to write it. -/
theorem Serving.run_inLine (h : Serving r s x v y w) (hid : ∀ x b, r.hooks.process x b = b)
    (hw : y.worker = .inLine) (he : y.queue.heap.contents ≠ 0) :
    ∃ z w', Serving r s x (v.apply (.run (.worker s))) z w' ∧
      (z.worker = .inLine ∨ ∃ d, z.worker = .delivering d) ∧ z.queue.size + 1 = y.queue.size := by
  obtain ⟨u, z, b, htaken, hsize, happly⟩ := h.take hw he
  rw [happly]
  cases hstale : z.cursor.isStale r.config.stalePolicy b.ids with
  | true =>
    obtain ⟨z', w', hskipped, hline, hheap⟩ := htaken.skip hstale
    exact ⟨z', w', hskipped, .inl hline, by rwa [Queue.size, hheap]⟩
  | false =>
    obtain ⟨z', w', hbegun, hwriting, hheap⟩ := htaken.begin hid hstale
    exact ⟨z', w', hbegun, .inr hwriting, by rwa [Queue.size, hheap]⟩

/-! ### A write under way -/

/-- A write of the worker is let go on that was held, or at most a call goes on. -/
theorem release_cases (v : Registry) (s : SessionId) (o : WriteOutcome) :
    (∃ d, (v.session? s).map Session.worker = some (.delivering d) ∧ d.point = .writing .held) ∨
      ∃ calls, (v.release s o).1 = { v with calls := calls } := by
  unfold release
  dsimp only
  split
  · rename_i d' hworker
    split at hworker
    · rename_i d hd
      unfold release? at hworker
      split at hworker
      · exact .inl ⟨d, hd, ‹_›⟩
      · cases hworker
    · cases hworker
  · split
    · exact .inr ⟨_, rfl⟩
    · exact .inr ⟨v.calls, rfl⟩

namespace Serving

variable {d : Delivery} {point point' : WritePoint} {k : Sink}

theorem of_delivering (h : Serving r s x v y w) (hw : y.worker = .delivering d)
    (hd : d.point = .writing point) :
    y.queue.gate.line = [.worker] ∧ y.Writing x.writes w d point := by
  obtain ⟨hg, point', hy⟩ := h.served.of_delivering hw
  obtain rfl : point' = point := DeliveryPoint.writing.inj (hy.stands.symm.trans hd)
  exact ⟨hg, hy⟩

theorem ready_of_delivering (h : Serving r s x v y w) (hw : y.worker = .delivering d)
    (hd : d.point = .writing point) :
    v.ready (.worker s) = y.sink.ready v.now .worker point := by
  simp only [ready, workerReady, h.session?, Queue.workerReady, hw, deliveryReady, hd]

theorem step_of_delivering (h : Serving r s x v y w) (hw : y.worker = .delivering d) :
    v.workerStep s = workerProgress s (v.deliveryStep s .worker d) := by
  simp only [workerStep, h.session?, hw]

/-- A write that has not come to its end goes on. -/
theorem write_on (h : Serving r s x v y w) (hw : y.worker = .delivering d)
    (hd : d.point = .writing point)
    (hready : v.ready (.worker s) = true)
    (hstep : y.sink.step v.now .worker d.frame point = (k, .running point'))
    (hk : k.Writes point') :
    ∃ z, Serving r s x (v.apply (.run (.worker s))) z w ∧
      z.worker = .delivering { d with point := .writing point' } ∧ z.sink = k ∧
      z.queue = y.queue := by
  obtain ⟨hg, hy⟩ := h.of_delivering hw hd
  have hgone : v.deliveryStep s .worker d =
      (v.update s fun x => { x with sink := k }, .running { d with point := .writing point' }) := by
    simp only [deliveryStep, hy.stands, h.session?, hstep]
  have hmoved := (h.attends.update fun x => { x with sink := k }).update fun x =>
    { x with worker := .delivering { d with point := .writing point' } }
  rw [apply_run_of_ready hready, h.step_of_delivering hw, hgone]
  exact ⟨_, h.of_same hmoved rfl h.opened
    (.writing _ _ rfl hg ⟨hy.kind, hy.keepAlive, rfl, hk, hy.cursor, hy.writes⟩), rfl, rfl, rfl⟩

/-- A write has succeeded, and the worker stands in line for the next batch. -/
theorem write_done (h : Serving r s x v y w) (hw : y.worker = .delivering d)
    (hd : d.point = .writing point)
    (hready : v.ready (.worker s) = true)
    (hstep : y.sink.step v.now .worker d.frame point = (k, .done (.ok ()))) (hk : k.Succeeds) :
    ∃ z, Serving r s x (v.apply (.run (.worker s))) z w ∧ z.worker = .inLine ∧
      z.queue.heap = y.queue.heap := by
  obtain ⟨hg, hy⟩ := h.of_delivering hw hd
  have hgone : v.deliveryStep s .worker d =
      ((v.update s fun x => { x with sink := k }).count
        (·.writeTook d.kind (.ofMillis (v.now - d.begun)))).writeSucceeded s d := by
    simp only [deliveryStep, hy.stands, h.session?, hstep]
    rfl
  -- how long the write took is no number that is kept account of
  have hsunk := (h.attends.update fun x => { x with sink := k }).count
    (f := (·.writeTook d.kind (.ofMillis (v.now - d.begun)))) fun _ => rfl
  have hsucceeded := hsunk.succeed h.opened hy.keepAlive
  rw [apply_run_of_ready hready, h.step_of_delivering hw, hgone]
  exact ⟨_, h.of_same hsucceeded rfl h.opened
    (.inLine rfl (Gate.line_join_of_nil (Gate.line_leave_of_alone hg)) ⟨hk, hy.cursor, hy.writes⟩), rfl, rfl⟩

theorem run (h : Serving r s x v y w) (hid : ∀ x b, r.hooks.process x b = b) :
    ∃ z w', Serving r s x (v.apply (.run (.worker s))) z w' := by
  by_cases hready : v.ready (.worker s) = true
  · cases h.served with
    | fresh hw =>
      obtain ⟨z, hz, -⟩ := h.run_fresh hw
      exact ⟨z, w, hz⟩
    | inLine hw =>
      by_cases he : y.queue.heap.contents = 0
      · obtain ⟨z, hz, -⟩ := h.run_inLine_of_empty hw he
        exact ⟨z, w, hz⟩
      · obtain ⟨z, w', hz, -⟩ := h.run_inLine hid hw he
        exact ⟨z, w', hz⟩
    | writing d point hw hg hy =>
      rcases hy.sink.step v.now d.frame with ⟨k, point', hstep, hk⟩ | ⟨k, hstep, hk⟩
      · obtain ⟨z, hz, -⟩ := h.write_on hw hy.stands hready hstep hk
        exact ⟨z, w, hz⟩
      · obtain ⟨z, hz, -⟩ := h.write_done hw hy.stands hready hstep hk
        exact ⟨z, w, hz⟩
    | asleep hw =>
      have hgiven : y.queue.signal.isGiven = true := by
        simpa only [ready, workerReady, h.session?, Queue.workerReady, hw, h.opened,
          Bool.false_or] using hready
      obtain ⟨z, hz, -⟩ := h.run_asleep hw hgiven
      exact ⟨z, w, hz⟩
  · -- a worker that has to wait does nothing
    have hsame : v.apply (.run (.worker s)) = v := if_neg hready
    rw [hsame]
    exact ⟨y, w, h⟩

theorem release_of_held (h : Serving r s x v y w) (hw : y.worker = .delivering d)
    (hd : d.point = .writing .held) {o : WriteOutcome} (ho : o.succeeds = true) :
    ∃ z, Serving r s x (v.apply (.release s o)) z w ∧
      z.worker = .delivering { d with point := .writing (.playing v.now o) } ∧
      z.queue = y.queue := by
  obtain ⟨hg, hy⟩ := h.of_delivering hw hd
  have hreleased : v.apply (.release s o) =
      v.setWorker s (.delivering { d with point := .writing (.playing v.now o) }) := by
    have hworker : (v.session? s).map Session.worker = some (.delivering d) := by
      rw [h.session?, Option.map_some, hw]
    simp only [apply, release, hworker, release?, hd]
  have hmoved := h.attends.update fun x =>
    { x with worker := .delivering { d with point := .writing (.playing v.now o) } }
  rw [hreleased]
  exact ⟨_, h.of_same hmoved rfl h.opened (.writing _ _ rfl hg
    ⟨hy.kind, hy.keepAlive, rfl, ⟨hy.sink, ho⟩, hy.cursor, hy.writes⟩), rfl, rfl⟩

/-- Only the worker's own write is its business, if one is let go on that was held. -/
theorem release (h : Serving r s x v y w) {o : WriteOutcome} (ho : o.succeeds = true) :
    ∃ z, Serving r s x (v.apply (.release s o)) z w := by
  rcases release_cases v s o with ⟨d, hx, hd⟩ | ⟨calls, hsame⟩
  · have hw : y.worker = .delivering d := by
      rwa [h.session?, Option.map_some, Option.some_inj] at hx
    obtain ⟨z, hz, -⟩ := h.release_of_held hw hd ho
    exact ⟨z, hz⟩
  · rw [show v.apply (.release s o) = { v with calls := calls } from hsame]
    exact ⟨y, { h with attends := { h.attends with } }⟩

/-- What the receiver takes only makes room for writes. -/
theorem receive_of_some (h : Serving r s x v y w) {c c' : Channel (Batch Nat)} {b : Batch Nat}
    (hk : y.sink = .channel c) (hc : c.receive? = some (b, c')) :
    Serving r s x (v.apply (.receive s)) { y with sink := .channel c' } w := by
  have happly : v.apply (.receive s) = v.update s fun x => { x with sink := .channel c' } := by
    simp only [apply, receive?, h.session?, Option.map_some, hk, hc, Option.getD_some]
  obtain ⟨hs, hp⟩ := Sink.writes_receive hc
  rw [happly]
  exact h.of_same (h.attends.update fun x => { x with sink := .channel c' }) rfl h.opened
    (h.served.sink (hk ▸ hs) (hk ▸ hp))

theorem receive (h : Serving r s x v y w) : ∃ z, Serving r s x (v.apply (.receive s)) z w := by
  cases hgot : v.receive? s with
  | none =>
    have hsame : v.apply (.receive s) = v := by
      simp only [apply, hgot, Option.map_none, Option.getD_none]
    rw [hsame]
    exact ⟨y, h⟩
  | some got =>
    cases hk : y.sink with
    | scripted outcomes =>
      simp only [receive?, h.session?, Option.map_some, hk, reduceCtorEq] at hgot
    | channel c =>
      cases hc : c.receive? with
      | none =>
        simp only [receive?, h.session?, Option.map_some, hk, hc, Option.map_none,
          reduceCtorEq] at hgot
      | some taken => exact ⟨_, h.receive_of_some hk hc⟩

theorem elapse (h : Serving r s x v y w) (ms : Nat) :
    Serving r s x (v.apply (.elapse ms)) y w :=
  { h with attends := { h.attends with } }

/-- Whatever happens meanwhile keeps the account. -/
theorem apply (h : Serving r s x v y w) (hid : ∀ x b, r.hooks.process x b = b) {a : Action}
    (ha : a.Serves s) : ∃ z w', Serving r s x (v.apply a) z w' := by
  cases a with
  | run t =>
    cases t with
    | worker t =>
      obtain rfl : t = s := ha
      exact h.run hid
    | call i => exact ha.elim
  | elapse ms => exact ⟨y, w, h.elapse ms⟩
  | release t o =>
    obtain ⟨rfl, ho⟩ : t = s ∧ o.succeeds = true := ha
    obtain ⟨z, hz⟩ := h.release ho
    exact ⟨z, w, hz⟩
  | receive t =>
    obtain rfl : t = s := ha
    obtain ⟨z, hz⟩ := h.receive
    exact ⟨z, w, hz⟩
  | _ => exact ha.elim

/-- The account is kept as long as nothing else happens. -/
theorem run_actions (h : Serving r s x v y w) (hid : ∀ x b, r.hooks.process x b = b)
    {later : List Action} (hl : ∀ a ∈ later, a.Serves s) :
    ∃ z w', Serving r s x (v.run later) z w' := by
  induction later generalizing v y w with
  | nil => exact ⟨y, w, h⟩
  | cons a rest ih =>
    obtain ⟨z, w', hnext⟩ := h.apply hid (hl a List.mem_cons_self)
    exact ih hnext fun b hb => hl b (List.mem_cons_of_mem a hb)

end Serving

end Registry

end Multicast
