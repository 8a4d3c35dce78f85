import Multicast.Proofs.Demo.Portion
import Multicast.Proofs.Demo.Tending
import Multicast.Proofs.Registry.CatchUp

/-! One subscriber of the demonstration, from its activation on. Its worker takes the least number
that is pending, and writes it or skips it; its consumer takes out of the channel what was written.
Whatever they do, there is less left to do for them. -/

namespace Multicast

/-- A sleeper that is woken has been woken. -/
theorem Signal.isGiven_notify {s : Signal} (h : s.isGiven = true ∨ s = .awaited) :
    s.notify.isGiven = true := by
  rcases h with hgiven | rfl
  · cases s with
    | given again => rfl
    | clear | stored | awaited => cases hgiven
  · rfl

/-! ### The channel of a subscriber -/

namespace Sink

/-- An open channel out of which `taken` was received and which holds the rest of `frames`, while
the parties in `senders` are about to send. -/
def Conveys (taken frames : List (Batch Nat)) (senders : List Party) (k : Sink) : Prop :=
  ∃ c : Channel (Batch Nat), k = .channel c ∧ c.closed = false ∧ 0 < c.capacity ∧
    c.senders = senders ∧ taken ++ c.buffer = frames

/-- How many frames wait to be received. -/
def buffered : Sink → Nat
  | .channel c => c.buffer.length
  | .scripted _ => 0

variable {k : Sink} {taken frames : List (Batch Nat)} {p : Party}

theorem Conveys.startWrite (h : k.Conveys taken frames []) (now : Nat) (p : Party) :
    (k.startWrite now p).2 = .sending ∧ (k.startWrite now p).1.Conveys taken frames [p] ∧
      (k.startWrite now p).1.buffered = k.buffered := by
  obtain ⟨c, rfl, hopen, hroom, hnobody, hframes⟩ := h
  exact ⟨rfl, ⟨c.ask p, rfl, hopen, hroom, congrArg (· ++ [p]) hnobody, hframes⟩, rfl⟩

/-- The channel takes what is sent. -/
theorem Conveys.send (h : k.Conveys taken frames [p]) (now : Nat) (b : Batch Nat) :
    ∃ k', k.step now p b .sending = (k', .done (.ok ())) ∧ k'.Conveys taken (frames ++ [b]) [] ∧
      k'.buffered = k.buffered + 1 := by
  obtain ⟨c, rfl, hopen, hroom, halone, rfl⟩ := h
  have hsent := Channel.send_of_open (p := p) b hopen
  have hnobody : c.senders.erase p = [] := by
    rw [halone, List.erase_cons_head]
  refine ⟨.channel { c with senders := c.senders.erase p, buffer := c.buffer ++ [b] }, ?_,
    ⟨_, rfl, hopen, hroom, hnobody, (List.append_assoc ..).symm⟩, List.length_append⟩
  simp only [Sink.step, hsent]

/-- Nobody waits to send while the channel is empty. -/
theorem Conveys.ready_of_empty (h : k.Conveys taken taken [p]) (now : Nat) :
    k.ready now p .sending = true := by
  obtain ⟨c, rfl, hopen, hroom, halone, hframes⟩ := h
  have hempty : c.buffer = [] := by simpa using hframes
  simp [Sink.ready, Channel.mayGo, halone, hempty, hroom]

theorem Conveys.receive {c c' : Channel (Batch Nat)} {senders : List Party} {b : Batch Nat}
    (h : (channel c).Conveys taken frames senders) (hc : c.receive? = some (b, c')) :
    (channel c').Conveys (taken ++ [b]) frames senders := by
  obtain ⟨c, hk, hopen, hroom, hsenders, hframes⟩ := h
  obtain rfl := Sink.channel.inj hk
  obtain ⟨rest, hbuffer, rfl⟩ := Channel.exists_of_receive? hc
  refine ⟨_, rfl, hopen, hroom, hsenders, ?_⟩
  rw [← hframes, hbuffer, List.append_assoc, List.singleton_append]

end Sink

namespace Demo

open Registry (Tends)

/-! ### Where the worker stands -/

/-- The frames that were written to a subscriber when the given numbers have been. -/
def written (i : Nat) (numbers : List Nat) : List (Batch Nat) :=
  backfill i :: numbers.map liveBatch

/-- No write is under way, and those of the numbers are over. -/
structure Between (i : Nat) (taken : List (Batch Nat)) (numbers : List Nat) (x : Session) :
    Prop where
  sink : x.sink.Conveys taken (written i numbers) []
  cursor : x.cursor.position = some (numbers.getLastD (lastPast i))

/-- The number `m` is being written, and the writes of the numbers before it are over. -/
structure Writing (i : Nat) (taken : List (Batch Nat)) (numbers : List Nat) (m : Nat) (d : Delivery)
    (x : Session) : Prop where
  point : d.point = .writing .sending
  data : d.keepAlive = false
  frame : d.frame = liveBatch m
  sink : x.sink.Conveys taken (written i numbers) [.worker]
  cursor : x.cursor.position = some (numbers.getLastD (lastPast i))
  onward : numbers.getLastD (lastPast i) ≤ m

/-- Where the worker of a subscriber stands. When it sleeps, nothing is pending, or it has been
woken. -/
inductive Stands (i : Nat) (taken : List (Batch Nat)) (p : Portion) (x : Session) : Prop
  | fresh (hw : x.worker = .fresh) (hg : x.queue.gate.line = []) (h : Between i taken p.begun x)
  | inLine (hw : x.worker = .inLine) (hg : x.queue.gate.line = [.worker])
      (h : Between i taken p.begun x)
  | asleep (hw : x.worker = .asleep) (hg : x.queue.gate.line = [])
      (hs : x.queue.signal.isGiven = true ∨ x.queue.signal = .awaited ∧ p.pending = 0)
      (h : Between i taken p.begun x)
  | writing (numbers : List Nat) (m : Nat) (d : Delivery) (hw : x.worker = .delivering d)
      (hg : x.queue.gate.line = [.worker]) (hp : p.begun = numbers ++ [m])
      (h : Writing i taken numbers m d x)

/-- A subscriber that has been activated. Its consumer has received `taken`, the batches in
`skipped` have been skipped, and `p` tells how the numbers are divided that were announced for
it. -/
structure Seat (i : Nat) (taken skipped : List (Batch Nat)) (p : Portion) (x : Session) : Prop where
  active : x.stage = .active
  filter : x.filter = Filter.tagged (tenantOf i)
  opened : x.queue.closed = false
  ordered : x.queue.heap.Ordered
  pending : x.queue.heap.contents = p.pending.map liveBatch
  skipped : skipped = p.skipped.map liveBatch
  stands : Stands i taken p x

end Demo

/-! ### What is left to do -/

/-- How many steps a worker may have before it, as far as the point at which it stands tells. -/
def WorkerPoint.stepsLeft : WorkerPoint Delivery → Nat
  | .fresh => 2
  | .inLine => 1
  | .delivering _ => 3
  | .absent | .asleep | .stopped | .crashed => 0

/-- How many steps at most are left to the worker and the consumer of a subscriber. -/
def Session.stepsLeft (x : Session) : Nat :=
  3 * x.queue.size + 2 * x.queue.signal.wakeups + x.worker.stepsLeft + x.sink.buffered

namespace Demo

open Registry (Tends)

variable {r u v : Registry} {i m n : Nat} {x y z : Session} {p q : Portion} {d : Delivery}
  {taken skipped : List (Batch Nat)} {numbers : List Nat} {policy : StalePolicy}

/-- Between `r` and `v` the worker of the subscriber `i` has gone on, which was at `x` and is at `y`
then; there is less left to do for it. -/
structure Advances (policy : StalePolicy) (i : Nat) (taken : List (Batch Nat)) (p q : Portion)
    (x y : Session) (r v : Registry) : Prop where
  tends : ∃ skipped, Tends i r v y skipped
  move : p.Move policy (lastPast i) q
  seat : Seat i taken (v.skips i) q y
  less : y.stepsLeft < x.stepsLeft

/-! ### The worker -/

/-- A worker that has been started, or has been woken, comes to the head of its loop. -/
theorem Seat.workerTurn (h : Seat i taken (r.skips i) p x) (hbetween : Between i taken p.begun x)
    (hg : x.queue.gate.line = []) (ht : Tends i r v y []) {s : Signal}
    (hy : y = { x with queue := { x.queue with signal := s } })
    (hless : 2 * s.wakeups + 1 < 2 * x.queue.signal.wakeups + x.worker.stepsLeft) :
    ∃ y q, Advances policy i taken p q x y r (v.workerTurn i) := by
  subst hy
  have hturned := ht.workerTurn h.opened
  refine ⟨_, p, ⟨_, hturned⟩, .still p, ?_, ?_⟩
  · rw [hturned.skips_self]
    exact ⟨h.active, h.filter, h.opened, h.ordered, h.pending, h.skipped,
      .inLine rfl (Gate.line_join_of_nil hg) ⟨hbetween.sink, hbetween.cursor⟩⟩
  · show 3 * x.queue.size + 2 * s.wakeups + 1 + x.sink.buffered <
      3 * x.queue.size + 2 * x.queue.signal.wakeups + x.worker.stepsLeft + x.sink.buffered
    omega

/-- A worker that finds nothing goes to sleep. -/
theorem Seat.fallAsleep (hx : r.session? i = some x) (h : Seat i taken (r.skips i) p x)
    (hbetween : Between i taken p.begun x) (hw : x.worker = .inLine)
    (hg : x.queue.gate.line = [.worker]) (hnone : p.pending = 0) :
    ∃ y q, Advances policy i taken p q x y r (r.workerStep i) := by
  have hempty : x.queue.heap.pop? = none := by
    rw [Heap.pop?_eq_none_iff, h.pending, hnone, Multiset.map_zero]
  have hstep : r.workerStep i = (r.updateQueue i fun _ => { x.queue with
      gate := x.queue.gate.leave .worker
      signal := x.queue.signal.await }).setWorker i .asleep := by
    simp only [Registry.workerStep, hx, hw, Queue.takeNext, hempty]
  have hslept : Tends i r (r.workerStep i) { x with
      queue := { x.queue with
        gate := x.queue.gate.leave .worker
        signal := x.queue.signal.await }
      worker := .asleep } [] := by
    rw [hstep]
    exact ((Tends.refl hx).update _).setWorker _
  have hsignal : x.queue.signal.await.isGiven = true ∨ x.queue.signal.await = .awaited := by
    cases x.queue.signal <;> simp [Signal.await, Signal.isGiven]
  refine ⟨_, p, ⟨_, hslept⟩, .still p, ?_, ?_⟩
  · rw [hslept.skips_self]
    exact ⟨h.active, h.filter, h.opened, h.ordered, h.pending, h.skipped,
      .asleep rfl (Gate.line_leave_of_alone hg) (hsignal.imp_right fun hs => ⟨hs, hnone⟩)
        ⟨hbetween.sink, hbetween.cursor⟩⟩
  · show 3 * x.queue.size + 2 * x.queue.signal.await.wakeups + 0 + x.sink.buffered <
      3 * x.queue.size + 2 * x.queue.signal.wakeups + x.worker.stepsLeft + x.sink.buffered
    rw [hw, Signal.wakeups_await]
    exact Nat.add_lt_add_right (Nat.lt_succ_self _) _

/-- A subscriber whose worker has just taken the number `m`, which is the least that was pending. -/
structure Hand (i : Nat) (taken skipped : List (Batch Nat)) (p : Portion) (m : Nat) (x : Session) :
    Prop where
  active : x.stage = .active
  filter : x.filter = Filter.tagged (tenantOf i)
  opened : x.queue.closed = false
  ordered : x.queue.heap.Ordered
  pending : x.queue.heap.contents = p.pending.map liveBatch
  least : ∀ j ∈ p.pending, m ≤ j
  skipped : skipped = p.skipped.map liveBatch
  worker : x.worker = .inLine
  line : x.queue.gate.line = [.worker]
  between : Between i taken p.begun x

/-- The worker takes the least number that is pending. -/
theorem Seat.take (hx : r.session? i = some x) (h : Seat i taken (r.skips i) p x)
    (hbetween : Between i taken p.begun x) (hw : x.worker = .inLine)
    (hg : x.queue.gate.line = [.worker]) (hsome : p.pending ≠ 0) :
    ∃ (q : Portion) (m : Nat) (v : Registry) (y : Session), p = q.announce m ∧
      Hand i taken (r.skips i) q m y ∧ Tends i r v y [] ∧ y.stepsLeft + 3 = x.stepsLeft ∧
      r.workerStep i =
        Registry.workerProgress i (v.beginDelivery i .worker (liveBatch m) .live) := by
  have hne : x.queue.heap.contents ≠ 0 := by
    rw [h.pending]
    exact mt Multiset.map_eq_zero.mp hsome
  obtain ⟨b, rest, hpop, -, hordered, hcontents, hleast⟩ := h.ordered.exists_pop? hne
  obtain ⟨m, hm, rfl, hrest⟩ := (Multiset.map_eq_cons ..).mpr (h.pending.symm.trans hcontents)
  obtain ⟨q, rfl⟩ : ∃ q : Portion, p = q.announce m := by
    refine ⟨{ p with pending := p.pending.erase m }, ?_⟩
    rw [Portion.announce, Multiset.cons_erase hm]
  rw [Portion.pending_announce, Multiset.erase_cons_head] at hrest
  have hstep : r.workerStep i = Registry.workerProgress i
      ((r.updateQueue i fun _ => { x.queue with heap := rest }).beginDelivery
        i .worker (liveBatch m) .live) := by
    simp only [Registry.workerStep, hx, hw, Queue.takeNext, hpop, h.opened, Bool.false_eq_true,
      if_false]
  have hsize : x.queue.heap.size = rest.size + 1 := by
    rw [← Heap.card_contents, ← Heap.card_contents, hcontents, Multiset.card_cons]
  refine ⟨q, m, _, _, rfl, ?_, (Tends.refl hx).update _, ?_, hstep⟩
  · refine ⟨h.active, h.filter, h.opened, hordered, hrest.symm, fun j hj => ?_, h.skipped, hw, hg,
      ⟨hbetween.sink, hbetween.cursor⟩⟩
    have hpending : liveBatch j ∈ x.queue.heap.contents := by
      rw [h.pending]
      exact Multiset.mem_map_of_mem _ (Multiset.mem_cons_of_mem hj)
    exact WithBot.coe_le_coe.mp (hleast _ hpending)
  · show 3 * rest.size + 2 * x.queue.signal.wakeups + x.worker.stepsLeft + x.sink.buffered + 3 =
      3 * x.queue.heap.size + 2 * x.queue.signal.wakeups + x.worker.stepsLeft + x.sink.buffered
    omega

namespace Hand

theorem isStale_eq_false_iff (h : Hand i taken skipped p m y) :
    v.isStale y (liveBatch m) = false ↔
      v.config.stalePolicy.Follows (p.reach (lastPast i)) m := by
  have hposition : y.cursor.position = some (p.reach (lastPast i)) := h.between.cursor
  have hpasses := Cursor.isStale_singleton y.cursor v.config.stalePolicy m
  rw [hposition] at hpasses
  refine hpasses.trans ⟨fun hm => hm _ rfl, fun hm c hc => ?_⟩
  obtain rfl := Option.some.inj hc
  exact hm

/-- A number that is stale is skipped, and the worker stands in line again. -/
theorem skip (h : Hand i taken (r.skips i) p m y) (ht : Tends i r v y [])
    (hless : y.stepsLeft + 3 = x.stepsLeft)
    (hstale : ¬ r.config.stalePolicy.Follows (p.reach (lastPast i)) m) :
    ∃ z q, Advances r.config.stalePolicy i taken (p.announce m) q x z r
      (Registry.workerProgress i (v.beginDelivery i .worker (liveBatch m) .live)) := by
  have hcursor : v.isStale y (liveBatch m) = true := by
    rwa [← Bool.not_eq_false, h.isStale_eq_false_iff, ht.config]
  have hdata : (decide (DeliveryKind.live = .ping) || (liveBatch m).isPing) = false := rfl
  obtain ⟨u, hu, hskipped⟩ := ht.beginDelivery_of_stale hdata hcursor
  have hdone := hskipped.workerDone h.opened .stale
  rw [hu]
  refine ⟨_, _, ⟨_, hdone⟩, .skip p hstale, ?_, ?_⟩
  · rw [hdone.skips_self, h.skipped]
    exact ⟨h.active, h.filter, h.opened, h.ordered, h.pending, rfl,
      .inLine rfl (Gate.line_join_of_nil (Gate.line_leave_of_alone h.line))
        ⟨h.between.sink, h.between.cursor⟩⟩
  · -- the worker stands where it stood, with one number less
    have hsame : y.worker.stepsLeft = 1 := congrArg WorkerPoint.stepsLeft h.worker
    rw [← hless]
    show 3 * y.queue.size + 2 * y.queue.signal.wakeups + 1 + y.sink.buffered <
      3 * y.queue.size + 2 * y.queue.signal.wakeups + y.worker.stepsLeft + y.sink.buffered + 3
    omega

/-- The write of any other number begins. -/
theorem begin (h : Hand i taken (r.skips i) p m y) (ht : Tends i r v y [])
    (hless : y.stepsLeft + 3 = x.stepsLeft)
    (hprocess : ∀ x b, r.hooks.process x b = b)
    (hpasses : r.config.stalePolicy.Follows (p.reach (lastPast i)) m) :
    ∃ z q, Advances r.config.stalePolicy i taken (p.announce m) q x z r
      (Registry.workerProgress i (v.beginDelivery i .worker (liveBatch m) .live)) := by
  have hcursor : v.isStale y (liveBatch m) = false := by
    rwa [h.isStale_eq_false_iff, ht.config]
  have hframe : v.hooks.process y (liveBatch m) = liveBatch m := by
    rw [ht.hooks, hprocess]
  have hlive : (decide (DeliveryKind.live = .ping) || (liveBatch m).isPing) = false := rfl
  obtain ⟨u, d, hu, hdata, hsame, hpoint, hstarted⟩ :=
    ht.beginDelivery_of_fresh hlive hcursor hframe
  obtain ⟨hsending, hsink, hbuffered⟩ := h.between.sink.startWrite v.now .worker
  have hbegun := hstarted.setWorker (.delivering d)
  have hstep : Registry.workerProgress i (v.beginDelivery i .worker (liveBatch m) .live) =
      u.setWorker i (.delivering d) := by
    rw [hu]
    rfl
  rw [hstep]
  refine ⟨_, _, ⟨_, hbegun⟩, .begin p h.least hpasses, ?_, ?_⟩
  · rw [hbegun.skips_self]
    exact ⟨h.active, h.filter, h.opened, h.ordered, h.pending, h.skipped,
      .writing p.begun m d rfl h.line rfl {
        point := by rw [hpoint, hsending]
        data := hdata
        frame := hsame
        sink := hsink
        cursor := h.between.cursor
        onward := hpasses.le }⟩
  · have hinLine : y.worker.stepsLeft = 1 := congrArg WorkerPoint.stepsLeft h.worker
    rw [← hless]
    show 3 * y.queue.size + 2 * y.queue.signal.wakeups + 3 +
        (y.sink.startWrite v.now .worker).1.buffered <
      3 * y.queue.size + 2 * y.queue.signal.wakeups + y.worker.stepsLeft + y.sink.buffered + 3
    omega

end Hand

/-- A write succeeds, and the worker stands in line again. -/
theorem Seat.finish (hx : r.session? i = some x) (h : Seat i taken (r.skips i) p x)
    (hw : x.worker = .delivering d) (hg : x.queue.gate.line = [.worker])
    (hp : p.begun = numbers ++ [m]) (hwriting : Writing i taken numbers m d x) :
    ∃ y q, Advances policy i taken p q x y r (r.workerStep i) := by
  obtain ⟨k, hsent, hsink, hbuffered⟩ := hwriting.sink.send r.now d.frame
  obtain ⟨u, hu, hwritten⟩ :=
    (Tends.refl hx).deliveryStep_of_sent hwriting.point hsent hwriting.data
  have hstep : r.workerStep i = Registry.workerProgress i (u, .done .written) := by
    simp only [Registry.workerStep, hx, hw, hu]
  have hdone := hwritten.workerDone h.opened .written
  rw [← hstep] at hdone
  have hframes : written i numbers ++ [d.frame] = written i p.begun := by
    rw [hwriting.frame, hp, written, written, List.map_append]
    rfl
  have hreach : p.begun.getLastD (lastPast i) = m := by
    rw [hp, List.getLastD_concat]
  have hcursor : (x.cursor.advance m).1.position = some m := by
    rw [Cursor.position_advance, hwriting.cursor]
    exact congrArg some (Nat.max_eq_left hwriting.onward)
  refine ⟨_, p, ⟨_, hdone⟩, .still p, ?_, ?_⟩
  · rw [hdone.skips_self]
    refine ⟨h.active, h.filter, h.opened, h.ordered, h.pending, h.skipped,
      .inLine rfl (Gate.line_join_of_nil (Gate.line_leave_of_alone hg)) ⟨hframes ▸ hsink, ?_⟩⟩
    rw [hreach, ← hcursor, hwriting.frame]
    rfl
  · show 3 * x.queue.size + 2 * x.queue.signal.wakeups + 1 + k.buffered <
      3 * x.queue.size + 2 * x.queue.signal.wakeups + x.worker.stepsLeft + x.sink.buffered
    rw [hw, hbuffered]
    show _ < _ + 3 + _
    omega

/-- Whatever the worker does, it deals fairly with the numbers, and there is less left to do. -/
theorem Seat.workerStep (hx : r.session? i = some x) (h : Seat i taken (r.skips i) p x)
    (hready : r.workerReady i = true) (hprocess : ∀ x b, r.hooks.process x b = b) :
    ∃ y q, Advances r.config.stalePolicy i taken p q x y r (r.workerStep i) := by
  cases h.stands with
  | fresh hw hg hbetween =>
    have hstep : r.workerStep i = (r.note (.workerStarted (r.nameOf i))).workerTurn i := by
      simp only [Registry.workerStep, hx, hw]
    rw [hstep]
    refine h.workerTurn hbetween hg ((Tends.refl hx).note fun _ => rfl) rfl ?_
    rw [hw]
    exact Nat.lt_succ_self _
  | inLine hw hg hbetween =>
    by_cases hnone : p.pending = 0
    · exact h.fallAsleep hx hbetween hw hg hnone
    · obtain ⟨q, m, v, y, rfl, hhand, ht, hless, hstep⟩ := h.take hx hbetween hw hg hnone
      rw [hstep]
      by_cases hpasses : r.config.stalePolicy.Follows (q.reach (lastPast i)) m
      · exact hhand.begin ht hless hprocess hpasses
      · exact hhand.skip ht hless hpasses
  | asleep hw hg hs hbetween =>
    have hgiven : x.queue.signal.isGiven = true := by
      simpa only [Registry.workerReady, hx, Queue.workerReady, hw, h.opened, Bool.false_or]
        using hready
    have hstep : r.workerStep i =
        (r.updateQueue i fun q => { q with signal := q.signal.resume }).workerTurn i := by
      simp only [Registry.workerStep, hx, hw, h.opened, Bool.false_eq_true, if_false]
    rw [hstep]
    refine h.workerTurn hbetween hg ((Tends.refl hx).update _) rfl ?_
    have hused := Signal.wakeups_resume hgiven
    rw [hw]
    show _ < _ + 0
    omega
  | writing numbers m d hw hg hp hwriting => exact h.finish hx hw hg hp hwriting

/-! ### The consumer and the producer -/

/-- The consumer receives a batch. -/
theorem Seat.receive (hx : r.session? i = some x) (h : Seat i taken (r.skips i) p x) {b : Batch Nat}
    (hreceived : r.receive? i = some (b, v)) :
    ∃ y, Tends i r v y [] ∧ Seat i (taken ++ [b]) (v.skips i) p y ∧
      y.stepsLeft < x.stepsLeft := by
  cases hsink : x.sink with
  | scripted outcomes =>
    simp only [Registry.receive?, hx, Option.map_some, hsink, reduceCtorEq] at hreceived
  | channel c =>
    simp only [Registry.receive?, hx, Option.map_some, hsink] at hreceived
    obtain ⟨⟨b', c'⟩, hc, hv⟩ := Option.map_eq_some_iff.mp hreceived
    obtain ⟨rfl, rfl⟩ := Prod.mk.inj hv
    have ht := (Tends.refl hx).update fun x => { x with sink := .channel c' }
    have hconveys {frames : List (Batch Nat)} {senders : List Party}
        (h : x.sink.Conveys taken frames senders) :
        (Sink.channel c').Conveys (taken ++ [b']) frames senders :=
      Sink.Conveys.receive (hsink ▸ h) hc
    refine ⟨_, ht, ?_, ?_⟩
    · rw [ht.skips_self]
      refine ⟨h.active, h.filter, h.opened, h.ordered, h.pending, h.skipped, ?_⟩
      cases h.stands with
      | fresh hw hg hbetween => exact .fresh hw hg ⟨hconveys hbetween.sink, hbetween.cursor⟩
      | inLine hw hg hbetween => exact .inLine hw hg ⟨hconveys hbetween.sink, hbetween.cursor⟩
      | asleep hw hg hs hbetween =>
        exact .asleep hw hg hs ⟨hconveys hbetween.sink, hbetween.cursor⟩
      | writing numbers m d hw hg hp hwriting =>
        exact .writing numbers m d hw hg hp { hwriting with sink := hconveys hwriting.sink }
    · have hbuffered : x.sink.buffered = c'.buffer.length + 1 := by
        obtain ⟨rest, hbuffer, rfl⟩ := Channel.exists_of_receive? hc
        rw [hsink]
        exact congrArg List.length hbuffer
      show 3 * x.queue.size + 2 * x.queue.signal.wakeups + x.worker.stepsLeft + c'.buffer.length <
        3 * x.queue.size + 2 * x.queue.signal.wakeups + x.worker.stepsLeft + x.sink.buffered
      omega

/-- One number more is pending, and the worker is woken. -/
theorem Seat.enqueue (h : Seat i taken skipped p x) (m : Nat) :
    Seat i taken skipped (p.announce m) (x.enqueue (liveBatch m)).1 := by
  rw [Session.enqueue_of_open _ h.opened]
  refine ⟨h.active, h.filter, h.opened, h.ordered.push _, ?_, h.skipped, ?_⟩
  · dsimp only
    rw [Heap.contents_push, h.pending, Portion.pending_announce, Multiset.map_cons]
  · cases h.stands with
    | fresh hw hg hbetween => exact .fresh hw hg ⟨hbetween.sink, hbetween.cursor⟩
    | inLine hw hg hbetween => exact .inLine hw hg ⟨hbetween.sink, hbetween.cursor⟩
    | asleep hw hg hs hbetween =>
      exact .asleep hw hg (.inl (Signal.isGiven_notify (hs.imp_right And.left)))
        ⟨hbetween.sink, hbetween.cursor⟩
    | writing numbers m' d hw hg hp hwriting =>
      exact .writing numbers m' d hw hg hp { hwriting with }

/-- When neither the worker nor the consumer has anything to do, nothing is pending, and all that
was written has been received. -/
theorem Seat.drained (hx : r.session? i = some x) (h : Seat i taken skipped p x)
    (hworker : r.workerReady i = false) (hconsumer : r.receive? i = none) :
    p.pending = 0 ∧ taken = written i p.begun := by
  have htaken {frames : List (Batch Nat)} {senders : List Party}
      (h : x.sink.Conveys taken frames senders) : taken = frames := by
    obtain ⟨c, hsink, -, -, -, rfl⟩ := h
    have hempty : c.receive? = none := by
      simpa only [Registry.receive?, hx, Option.map_some, hsink, Option.map_eq_none_iff]
        using hconsumer
    cases hbuffer : c.buffer with
    | nil => rw [List.append_nil]
    | cons b rest => simp only [Channel.receive?, hbuffer, reduceCtorEq] at hempty
  simp only [Registry.workerReady, hx] at hworker
  cases h.stands with
  | fresh hw =>
    rw [hw] at hworker
    cases hworker
  | inLine hw hg =>
    have hholds : x.queue.gate.holds .worker = true := by
      rw [Gate.holds_iff, hg, List.head?_cons]
    simp only [hw, Queue.workerReady, hholds, Bool.true_eq_false] at hworker
  | asleep hw hg hs hbetween =>
    simp only [hw, Queue.workerReady, h.opened, Bool.false_or] at hworker
    rcases hs with hgiven | ⟨-, hnone⟩
    · rw [hworker] at hgiven
      cases hgiven
    · exact ⟨hnone, htaken hbetween.sink⟩
  | writing numbers m d hw hg hp hwriting =>
    -- a channel out of which all was received has room
    have hsink := hwriting.sink
    rw [← htaken hsink] at hsink
    simp only [hw, Queue.workerReady, Registry.deliveryReady, hwriting.point, hx,
      hsink.ready_of_empty, Bool.true_eq_false] at hworker

end Demo

end Multicast
