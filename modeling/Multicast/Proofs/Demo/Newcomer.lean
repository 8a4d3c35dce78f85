import Multicast.Proofs.Demo.Seat
import Multicast.Proofs.Registry.Enrolment

/-! A subscriber of the demonstration until its activation. It is registered, its history is written
to it past its queue, and then its worker is started; by then nothing else has been written. -/

namespace Multicast

namespace Demo

open Registry (Tends)

variable {r u v : Registry} {i j : Nat} {x y : Session} {d : Direct} {run : Delivery}
  {frames : List (Batch Nat)} {line senders : List Party} {cursor : Option Nat}

/-- A subscriber that has been registered and not yet activated. The parties in `line` stand at its
gate, those in `senders` are about to send, and `frames` have been written. -/
structure Newcomer (i : Nat) (frames : List (Batch Nat)) (line senders : List Party)
    (cursor : Option Nat) (x : Session) : Prop where
  stage : x.stage = .registered
  worker : x.worker = .absent
  filter : x.filter = Filter.tagged (tenantOf i)
  opened : x.queue.closed = false
  idle : x.queue.started = false
  empty : x.queue.heap.contents = 0
  ordered : x.queue.heap.Ordered
  signal : x.queue.signal = .clear
  line : x.queue.gate.line = line
  sink : x.sink.Conveys [] frames senders
  cursor : x.cursor.position = cursor

theorem newcomer_ofSubscription (i room : Nat) :
    Newcomer i [] [] [] none (.ofSubscription (subscription i) room) where
  stage := rfl
  worker := rfl
  filter := rfl
  opened := rfl
  idle := rfl
  empty := rfl
  ordered := Heap.ordered_withCapacity room
  signal := rfl
  line := rfl
  sink := ⟨_, rfl, rfl, by decide, rfl, rfl⟩
  cursor := rfl

/-- The delivery of its history to a subscriber, with the write that is under way. -/
def historyTo (i : Nat) (run : Option Delivery) : Direct :=
  { session := i, batch := backfill i, kind := .historical, delivery := run }

/-- While no signal has been given, nobody is cancelled. -/
theorem isCancelled_of_no_tokens (h : r.cancelledTokens = []) (s : SessionId) :
    r.isCancelled s = false := by
  unfold Registry.isCancelled
  split
  · rw [h]
    rfl
  · rfl

/-- The call that sends the history stands in line at the gate. -/
theorem Newcomer.sendHistorical (h : Newcomer i [] [] [] none x) (hx : r.session? i = some x)
    (htokens : r.cancelledTokens = []) :
    ∃ y, Tends i r (r.sendHistorical i (backfill i)) y [] ∧
      Newcomer i [] [.call r.calls.length] [] none y ∧
      (r.sendHistorical i (backfill i)).calls = r.calls ++ [.sending (historyTo i none)] := by
  obtain ⟨q, hq⟩ : ∃ q : Queue Nat,
      q = { x.queue with gate := x.queue.gate.join (.call r.calls.length) } := ⟨_, rfl⟩
  have hcancelled : (r.addCall .crashed).isCancelled i = false :=
    isCancelled_of_no_tokens htokens i
  have hasked : (r.addCall .crashed).askGate i (.call r.calls.length) =
      ((r.addCall .crashed).updateQueue i fun _ => q, true) := by
    have hsame : (r.addCall .crashed).session? i = some x := hx
    simp only [Registry.askGate, hsame, Queue.ask, h.opened, Bool.false_eq_true, if_false, hq]
  have hsent : r.sendHistorical i (backfill i) =
      ((r.addCall .crashed).updateQueue i fun _ => q).setCall r.calls.length
        (.sending (historyTo i none)) := by
    simp only [Registry.sendHistorical, Registry.startCall, hcancelled, Bool.false_eq_true,
      if_false, hasked]
    rfl
  have ht : Tends i r (((r.addCall .crashed).updateQueue i fun _ => q).setCall r.calls.length
      (.sending (historyTo i none))) { x with queue := q } [] :=
    (((Tends.refl hx).addCall .crashed).update _).setCall _ _
  rw [hsent]
  refine ⟨_, ht, ?_, ?_⟩
  · rw [hq]
    exact { h with line := Gate.line_join_of_nil h.line }
  · exact congrArg Registry.calls
      (Registry.setCall_addCall r .crashed (.sending (historyTo i none)))

/-- The write of the history begins. -/
theorem Newcomer.begin (h : Newcomer i [] [.call j] [] none x) (hx : r.session? i = some x)
    (hprocess : ∀ x b, r.hooks.process x b = b) :
    ∃ y run, Tends i r (r.directStep (.call j) (historyTo i none)).1 y [] ∧
      (r.directStep (.call j) (historyTo i none)).2 = .running (historyTo i (some run)) ∧
      run.point = .writing .sending ∧ run.keepAlive = false ∧ run.frame = backfill i ∧
      Newcomer i [] [.call j] [.call j] none y := by
  have hdata : (decide (DeliveryKind.historical = .ping) || (backfill i).isPing) = false := by
    rw [isPing_backfill]
    rfl
  have hfresh : r.isStale x (backfill i) = false := by
    simp only [Registry.isStale, Cursor.isStale, h.cursor]
  obtain ⟨u, run, hu, hkeep, hframe, hpoint, ht⟩ := (Tends.refl hx).beginDelivery_of_fresh
    (p := .call j) hdata hfresh (hprocess x _)
  obtain ⟨hsending, hsink, -⟩ := h.sink.startWrite r.now (.call j)
  have hstep : r.directStep (.call j) (historyTo i none) =
      (u, .running (historyTo i (some run))) := by
    simp only [Registry.directStep, historyTo, hx, h.opened, Bool.false_eq_true, if_false, hu]
    rfl
  rw [hstep]
  refine ⟨_, run, ht, rfl, by rw [hpoint, hsending], hkeep, hframe, ?_⟩
  exact { h with sink := hsink }

/-- The write of the history is over, and the gate is given back. -/
theorem Newcomer.finish (h : Newcomer i [] [.call j] [.call j] none x) (hx : r.session? i = some x)
    (hpoint : run.point = .writing .sending) (hkeep : run.keepAlive = false)
    (hframe : run.frame = backfill i) :
    ∃ y, Tends i r (r.directStep (.call j) (historyTo i (some run))).1 y [] ∧
      (r.directStep (.call j) (historyTo i (some run))).2 = .done true ∧
      Newcomer i [backfill i] [] [] (some (lastPast i)) y := by
  obtain ⟨k, hsent, hsink, -⟩ := h.sink.send r.now run.frame
  obtain ⟨u, hu, ht⟩ := (Tends.refl hx).deliveryStep_of_sent hpoint hsent hkeep
  have hstep : r.directStep (.call j) (historyTo i (some run)) =
      (u.leave i (.call j), .done true) := by
    simp only [Registry.directStep, historyTo, hu]
    rfl
  have hcursor : (x.recordDelivery run.frame).cursor.position = some (lastPast i) := by
    simp only [Session.recordDelivery, hframe, (lastId?_backfill i).1, Cursor.position_advance,
      h.cursor]
    rfl
  rw [hstep]
  refine ⟨_, ht.leave _, rfl, ?_⟩
  exact { h with
    line := Gate.line_leave_of_alone h.line
    sink := by rw [← hframe]; exact hsink
    cursor := hcursor }

/-- When the history has been written, the subscriber takes its seat. -/
theorem Newcomer.activate (h : Newcomer i [backfill i] [] [] (some (lastPast i)) x)
    (hx : r.session? i = some x) :
    ∃ y, Tends i r (r.activate i).1 y [] ∧ Seat i [] [] {} y ∧ y.stepsLeft = 3 := by
  have hactive := Session.activate_of_registered h.stage h.idle h.opened
  have hactivated : r.activate i = ((r.update i fun _ => x.activate.1).note
      (.activated (r.nameOf i) x.activate.1.queue.size), true) := by
    simp only [Registry.activate, hx, hactive]
  have ht := ((Tends.refl hx).update fun _ => x.activate.1).note
    (e := .activated (r.nameOf i) x.activate.1.queue.size) fun _ => rfl
  have hsize : x.queue.heap.size = 0 := by
    rw [← Heap.card_contents, h.empty, Multiset.card_zero]
  rw [hactivated]
  refine ⟨_, ht, ?_, ?_⟩
  · rw [hactive]
    exact ⟨rfl, h.filter, h.opened, h.ordered, h.empty, rfl,
      .fresh rfl h.line ⟨h.sink, h.cursor⟩⟩
  · rw [hactive]
    show 3 * x.queue.heap.size + 2 * x.queue.signal.wakeups + 2 + x.sink.buffered = 3
    obtain ⟨c, hsink, -, -, -, hframes⟩ := h.sink
    rw [hsize, h.signal, hsink]
    exact congrArg (2 + ·) (congrArg List.length hframes)

end Demo

end Multicast
