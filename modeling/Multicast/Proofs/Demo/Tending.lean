import Multicast.Proofs.Gate
import Multicast.Proofs.Isolation.Within
import Multicast.Proofs.Registry.Delivery

/-! What is done for one subscriber, step by step: which state it comes to, and which batches are
skipped for it. All others stay as they are. -/

namespace Multicast

/-- The batch that is skipped for a subscriber because it is stale. -/
def Event.skippedFor? (s : SessionId) : Event → Option (Batch Nat)
  | .staleSkipped who _ b _ => if who.id = s then some b else none
  | _ => none

namespace Registry

/-- The batches that were skipped for a subscriber, the latest first. -/
def skips (r : Registry) (s : SessionId) : List (Batch Nat) :=
  r.history.filterMap (·.skippedFor? s)

/-- What leads from `r` to `v` is done for the subscriber `s`, which is at `y` then; the batches in
`skipped` have been skipped for it meanwhile. -/
structure Tends (s : SessionId) (r v : Registry) (y : Session) (skipped : List (Batch Nat)) :
    Prop extends Steady r v where
  known : s < r.sessions.length
  sessions : v.sessions = r.sessions.set s y
  skips : ∀ t, v.skips t = (if t = s then skipped else []) ++ r.skips t

variable {r u v : Registry} {s t : SessionId} {x y : Session} {p : Party} {b : Batch Nat}
  {kind : DeliveryKind} {d : Delivery} {skipped : List (Batch Nat)} {k : Sink} {o : DeliveryOutcome}

theorem skips_note {e : Event} (he : e.skippedFor? s = none) : (r.note e).skips s = r.skips s :=
  List.filterMap_cons_none he

namespace Tends

theorem refl (hx : r.session? s = some x) : Tends s r r x [] where
  toSteady := .refl r
  known := (List.getElem?_eq_some_iff.mp hx).1
  sessions := by
    obtain ⟨hlen, hget⟩ := List.getElem?_eq_some_iff.mp hx
    rw [← hget, List.set_getElem_self]
  skips t := by simp

theorem session?_self (h : Tends s r v y skipped) : v.session? s = some y := by
  rw [session?, h.sessions]
  exact List.getElem?_set_self h.known

theorem session?_of_ne (h : Tends s r v y skipped) (ht : t ≠ s) : v.session? t = r.session? t := by
  rw [session?, h.sessions]
  exact List.getElem?_set_ne ht.symm

theorem length_eq (h : Tends s r v y skipped) : v.sessions.length = r.sessions.length := by
  rw [h.sessions, List.length_set]

theorem skips_self (h : Tends s r v y skipped) : v.skips s = skipped ++ r.skips s := by
  rw [h.skips, if_pos rfl]

theorem skips_of_ne (h : Tends s r v y skipped) (ht : t ≠ s) : v.skips t = r.skips t := by
  rw [h.skips, if_neg ht, List.nil_append]

theorem update (h : Tends s r v y skipped) (f : Session → Session) :
    Tends s r (v.update s f) (f y) skipped := by
  have hput : v.update s f = v.put s (f y) [] := update_eq_put h.session?_self f
  rw [hput]
  refine { h with sessions := ?_ }
  rw [put, h.sessions, List.set_set]

theorem note (h : Tends s r v y skipped) {e : Event} (he : ∀ t, e.skippedFor? t = none) :
    Tends s r (v.note e) y skipped :=
  { h with skips := fun t => (skips_note (he t)).trans (h.skips t) }

theorem count (h : Tends s r v y skipped) (f : Metrics → Metrics) :
    Tends s r (v.count f) y skipped :=
  { h with }

theorem addCall (h : Tends s r v y skipped) (c : Call) : Tends s r (v.addCall c) y skipped :=
  { h with }

theorem setCall (h : Tends s r v y skipped) (j : Nat) (c : Call) :
    Tends s r (v.setCall j c) y skipped :=
  { h with }

theorem skip (h : Tends s r v y skipped) (kind : DeliveryKind) (b : Batch Nat)
    (position : Option Nat) :
    Tends s r (v.note (.staleSkipped (v.nameOf s) kind b position)) y (b :: skipped) := by
  refine { h with skips := fun t => ?_ }
  by_cases ht : t = s
  · subst ht
    have htold : (Event.staleSkipped (v.nameOf t) kind b position).skippedFor? t = some b :=
      if_pos rfl
    rw [Registry.skips, Registry.note, List.filterMap_cons_some htold, if_pos rfl,
      List.cons_append, ← h.skips_self]
    rfl
  · have hother : (Event.staleSkipped (v.nameOf s) kind b position).skippedFor? t = none :=
      if_neg (Ne.symm ht)
    rw [skips_note hother, h.skips_of_ne ht, if_neg ht, List.nil_append]

theorem setWorker (h : Tends s r v y skipped) (w : WorkerPoint Delivery) :
    Tends s r (v.setWorker s w) { y with worker := w } skipped := h.update _

theorem leave (h : Tends s r v y skipped) (p : Party) :
    Tends s r (v.leave s p) { y with queue := y.queue.leave p } skipped := h.update _

/-- The worker comes to the head of its loop while the queue is open. -/
theorem workerTurn (h : Tends s r v y skipped) (hopen : y.queue.closed = false) :
    Tends s r (v.workerTurn s) { y with
      queue := { y.queue with gate := y.queue.gate.join .worker }
      worker := .inLine } skipped := by
  have hturn : v.workerTurn s = (v.updateQueue s fun _ =>
      { y.queue with gate := y.queue.gate.join .worker }).setWorker s .inLine := by
    simp only [Registry.workerTurn, h.session?_self, Queue.workerTurn, Queue.ask, hopen,
      Bool.false_eq_true, if_false]
  rw [hturn]
  exact (h.update _).setWorker _

/-- A delivery of the worker is over: it stands in line again. -/
theorem workerDone (h : Tends s r v y skipped) (hopen : y.queue.closed = false)
    (o : DeliveryOutcome) : Tends s r (workerProgress s (v, .done o)) { y with
      queue := { y.queue with gate := (y.queue.gate.leave .worker).join .worker }
      worker := .inLine } skipped :=
  (h.leave .worker).workerTurn hopen

/-- Data that is stale is skipped. -/
theorem beginDelivery_of_stale (h : Tends s r v y skipped)
    (hdata : (decide (kind = .ping) || b.isPing) = false) (hstale : v.isStale y b = true) :
    ∃ u, v.beginDelivery s p b kind = (u, .done .stale) ∧ Tends s r u y (b :: skipped) := by
  rw [Registry.beginDelivery_of_stale h.session?_self hdata hstale]
  exact ⟨_, rfl, ((h.skip kind b _).count _).note fun _ => rfl⟩

/-- The write of other data begins, if the callback leaves the batch as it is. -/
theorem beginDelivery_of_fresh (h : Tends s r v y skipped)
    (hdata : (decide (kind = .ping) || b.isPing) = false) (hfresh : v.isStale y b = false)
    (hsame : v.hooks.process y b = b) :
    ∃ u d, v.beginDelivery s p b kind = (u, .running d) ∧ d.keepAlive = false ∧ d.frame = b ∧
      d.point = .writing (y.sink.startWrite v.now p).2 ∧
      Tends s r u { y with sink := (y.sink.startWrite v.now p).1 } skipped := by
  rw [Registry.beginDelivery_of_fresh h.session?_self hdata (.inr hfresh), hsame]
  exact ⟨_, _, rfl, rfl, rfl, rfl, (h.update _).note fun _ => rfl⟩

/-- A write of data succeeds. -/
theorem deliveryStep_of_sent (h : Tends s r v y skipped) {point : WritePoint}
    (hpoint : d.point = .writing point)
    (hsent : y.sink.step v.now p d.frame point = (k, .done (.ok ())))
    (hdata : d.keepAlive = false) :
    ∃ u, v.deliveryStep s p d = (u, .done .written) ∧
      Tends s r u (({ y with sink := k } : Session).recordWrite.recordDelivery d.frame)
        skipped := by
  have hstep : v.deliveryStep s p d =
      ((v.update s fun x => { x with sink := k }).count
        (·.writeTook d.kind (.ofMillis (v.now - d.begun)))).writeSucceeded s d := by
    simp only [deliveryStep, hpoint, h.session?_self, hsent]
    rfl
  have hsunk := (h.update fun x => { x with sink := k }).count
    (·.writeTook d.kind (.ofMillis (v.now - d.begun)))
  rw [hstep, writeSucceeded, hdata]
  refine ⟨_, rfl, ?_⟩
  exact ((((hsunk.update Session.recordWrite).update (·.recordDelivery d.frame)).count _).note
    fun _ => rfl).note fun _ => rfl

end Tends

end Registry

end Multicast
