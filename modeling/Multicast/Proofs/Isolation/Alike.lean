import Multicast.Proofs.Isolation.Twin
import Multicast.Proofs.Isolation.Within

/-! What is done to a subscriber that stands in two registries as it would. The same work leaves it
so, and comes to the same in both. -/

namespace Multicast

/-- The same work in two registries leaves a subscriber as it would stand, and has one result. -/
def AlikeAfter {α : Type} (request : Subscription) (P : Party → Party → Prop) (s s' : SessionId)
    (o o' : Registry × α) : Prop :=
  Alike request P s s' o.1 o'.1 ∧ o'.2 = o.2

namespace Registry

variable {request : Subscription} {P : Party → Party → Prop} {s s' : SessionId}
  {r r' : Registry} {x x' : Session} {p p' : Party} {b : Batch Nat} {d : Delivery}
  {kind : DeliveryKind}

/-! ### Small changes -/

/-- What surrounds a subscriber stays the same when it stays as it is in both registries. -/
theorem around_steady {v v' : Registry} (h : Around request r r') (hv : Steady r v)
    (hv' : Steady r' v') : Around request v v' where
  hooks := ⟨hv.hooks.trans h.hooks.1, hv'.hooks.trans h.hooks.2⟩
  running := ⟨hv.stopped.trans h.running.1, hv'.stopped.trans h.running.2⟩
  config := by rw [hv.config, hv'.config, h.config]
  now := by rw [hv.now, hv'.now, h.now]
  tokens := by
    rw [hv.tokens, hv'.tokens]
    exact h.tokens

/-- Nothing else than the surroundings, the subscriber and what is told of it is looked at. -/
theorem alike_put (h : Alike request P s s' r r') (hx : r.session? s = some x)
    (hx' : r'.session? s' = some x') {y y' : Session} (hy : y.Twin request P y')
    {es es' : List Event} (he : ∀ e ∈ es, ∀ t, e.mark? t = none)
    (he' : ∀ e ∈ es', ∀ t, e.mark? t = none) :
    Alike request P s s' (r.put s y es) (r'.put s' y' es') where
  toAround := { h.toAround with }
  twin := ⟨y, y', session?_put_self hx y es, session?_put_self hx' y' es', hy⟩
  begun := by rw [begun_put r s y he, begun_put r' s' y' he', h.begun]

theorem alike_update (h : Alike request P s s' r r') (hx : r.session? s = some x)
    (hx' : r'.session? s' = some x') (f f' : Session → Session)
    (hf : (f x).Twin request P (f' x')) :
    Alike request P s s' (r.update s f) (r'.update s' f') := by
  rw [update_eq_put hx, update_eq_put hx']
  exact alike_put h hx hx' hf nofun nofun

theorem alike_count (h : Alike request P s s' r r') (f f' : Metrics → Metrics) :
    Alike request P s s' (r.count f) (r'.count f') :=
  { h with }

theorem alike_note (h : Alike request P s s' r r') {e e' : Event}
    (he : e'.begunTo? s' = e.begunTo? s) : Alike request P s s' (r.note e) (r'.note e') where
  toAround := { h.toAround with }
  twin := h.twin
  begun := by
    have hold := h.begun
    unfold begun at hold ⊢
    rw [note, note, List.filterMap_cons, List.filterMap_cons, he, hold]

theorem alike_leave (hP : Relator.BiUnique P) (h : Alike request P s s' r r') (hp : P p p') :
    Alike request P s s' (r.leave s p) (r'.leave s' p') := by
  obtain ⟨x, x', hx, hx', ht⟩ := h.twin
  exact alike_update h hx hx' _ _ (ht.leave hP hp)

theorem alike_setWorker (h : Alike request P s s' r r') (w : WorkerPoint Delivery) :
    Alike request P s s' (r.setWorker s w) (r'.setWorker s' w) := by
  obtain ⟨x, x', hx, hx', ht⟩ := h.twin
  exact alike_update h hx hx' _ _ (ht.withWorker w)

theorem alike_isCancelled (h : Alike request P s s' r r') :
    r'.isCancelled s' = r.isCancelled s := by
  obtain ⟨x, x', hx, hx', ht⟩ := h.twin
  cases ht with
  | mk _ _ htoken _ =>
    unfold isCancelled
    rw [hx, hx']
    simp only [Option.bind_some, htoken]
    cases hname : request.token with
    | none => rfl
    | some t =>
      rw [Bool.eq_iff_iff]
      simpa using h.tokens t hname

/-! ### Removal -/

theorem alike_detach (h : Alike request P s s' r r') (reason : RemovalReason) :
    AlikeAfter request P s s' (r.detach s reason) (r'.detach s' reason) := by
  obtain ⟨x, x', hx, hx', ht⟩ := h.twin
  have hstage : x'.stage = x.stage := by cases ht; rfl
  by_cases hr : x.stage = .removed
  · -- whoever was removed before is not removed again, in either registry
    have hgone : ∀ y, r.session? s = some y → y.stage = .removed := by
      intro y hy
      rw [hx] at hy
      exact Option.some.inj hy ▸ hr
    have hgone' : ∀ y, r'.session? s' = some y → y.stage = .removed := by
      intro y hy
      rw [hx'] at hy
      exact Option.some.inj hy ▸ (hstage.trans hr)
    rw [detach_of_removed hgone, detach_of_removed hgone']
    exact ⟨h, rfl⟩
  · have hr' : x'.stage ≠ .removed := fun heq => hr (hstage.symm.trans heq)
    obtain ⟨es, he, hdetach⟩ := detach_eq hx hr reason
    obtain ⟨es', he', hdetach'⟩ := detach_eq hx' hr' reason
    have hput := alike_put h hx hx' ht.remove he he'
    rw [hdetach, hdetach']
    exact ⟨{ hput with }, rfl⟩

theorem alike_callAfter (h : Alike request P s s' r r') :
    AlikeAfter request P s s' (r.callAfter s) (r'.callAfter s') := by
  obtain ⟨x, x', hx, hx', ht⟩ := h.twin
  simp only [callAfter, hx, hx', h.hooks.1, h.hooks.2, h.now]
  exact ⟨alike_note h rfl, rfl⟩

theorem alike_noteReturn (h : Alike request P s s' r r')
    {failure : SessionName → HookError → Event}
    (hf : ∀ who e t, (failure who e).begunTo? t = none) (result : Except HookError Unit) :
    Alike request P s s' (r.noteReturn s failure result) (r'.noteReturn s' failure result) := by
  cases result with
  | ok _ => exact alike_note h rfl
  | error e => exact alike_note (alike_note h rfl) ((hf _ e s').trans (hf _ e s).symm)

/-! ### Deliveries -/

theorem alike_finishDelivery (h : Alike request P s s' r r') (o : DeliveryOutcome) :
    AlikeAfter request P s s' (r.finishDelivery s o) (r'.finishDelivery s' o) :=
  ⟨alike_note h rfl, rfl⟩

theorem alike_beginDelivery (h : Alike request P s s' r r') (hp : P p p') :
    AlikeAfter request P s s' (r.beginDelivery s p b kind) (r'.beginDelivery s' p' b kind) := by
  obtain ⟨x, x', hx, hx', ht⟩ := h.twin
  have hstale : r'.isStale x' b = r.isStale x b := by
    cases ht
    simp only [isStale, h.config]
  have hframe : r.hooks.process x b = b ∧ r'.hooks.process x' b = b := by
    rw [h.hooks.1, h.hooks.2]
    exact ⟨rfl, rfl⟩
  obtain ⟨hstarted, hpoint⟩ := ht.sink_twin.startWrite hp r.now
  simp only [beginDelivery, hx, hx', hstale, hframe.1, hframe.2, h.now, hpoint]
  split
  · exact alike_finishDelivery (alike_count (alike_note h rfl) _ _) .stale
  · refine ⟨?_, ?_⟩
    · refine alike_note (alike_update h hx hx' _ _ (ht.withSink hstarted)) ?_
      simp [Event.begunTo?, nameOf]
    · dsimp only [update]
      rw [h.now]

theorem alike_writeSucceeded (h : Alike request P s s' r r') :
    AlikeAfter request P s s' (r.writeSucceeded s d) (r'.writeSucceeded s' d) := by
  obtain ⟨x, x', hx, hx', ht⟩ := h.twin
  have hwritten := alike_update h hx hx' _ _ ht.recordWrite
  have hrecorded := alike_update hwritten (session?_update hx _) (session?_update hx' _)
    (·.recordDelivery d.frame) (·.recordDelivery d.frame) (ht.recordWrite.recordDelivery d.frame)
  unfold writeSucceeded
  dsimp only
  apply alike_finishDelivery
  refine alike_note (alike_count ?_ _ _) rfl
  split
  · exact hwritten
  · exact hrecorded

theorem alike_writeFailed (h : Alike request P s s' r r') (e : SinkError) :
    AlikeAfter request P s s' (r.writeFailed s d e) (r'.writeFailed s' d e) := by
  unfold writeFailed
  dsimp only
  generalize hw : (r.note (.writeFailed (r.nameOf s) d.kind e)).count (·.sinkFailure d.kind) = w
  generalize hw' : (r'.note (.writeFailed (r'.nameOf s') d.kind e)).count (·.sinkFailure d.kind) =
    w'
  have hnoted : Alike request P s s' w w' := by
    rw [← hw, ← hw']
    exact alike_count (alike_note h rfl) _ _
  obtain ⟨hdetached, hfound⟩ := alike_detach hnoted .sinkFailure
  rcases hres : w.detach s .sinkFailure with ⟨v, found⟩
  rcases hres' : w'.detach s' .sinkFailure with ⟨v', found'⟩
  rw [hres, hres'] at hdetached
  rw [hres, hres'] at hfound
  obtain rfl : found' = found := hfound
  cases found' with
  | true =>
    obtain ⟨hcalled, hhook⟩ := alike_callAfter hdetached
    refine ⟨hcalled, ?_⟩
    dsimp only
    rw [hhook]
  | false => exact alike_finishDelivery hdetached .failed

theorem alike_deliveryReady (hP : Relator.BiUnique P) (h : Alike request P s s' r r')
    (hp : P p p') (d : Delivery) : r'.deliveryReady s' p' d = r.deliveryReady s p d := by
  obtain ⟨x, x', hx, hx', ht⟩ := h.twin
  unfold deliveryReady
  rw [hx, hx', h.now]
  cases d.point with
  | removing hook => rfl
  | writing point => exact ht.sink_twin.ready hP hp r.now point

theorem alike_deliveryStep (hP : Relator.BiUnique P) (h : Alike request P s s' r r')
    (hp : P p p') (d : Delivery) :
    AlikeAfter request P s s' (r.deliveryStep s p d) (r'.deliveryStep s' p' d) := by
  unfold deliveryStep
  cases d.point with
  | writing point =>
    obtain ⟨x, x', hx, hx', ht⟩ := h.twin
    obtain ⟨hstepped, hprogress⟩ := ht.sink_twin.step hP hp r.now d.frame point
    have hupdated := alike_update h hx hx' (fun y => { y with sink := _ })
      (fun y => { y with sink := _ }) (ht.withSink hstepped)
    simp only [hx, hx', h.now, hprogress]
    cases (x.sink.step r.now p d.frame point).2 with
    | running point' => exact ⟨hupdated, rfl⟩
    | crashed => exact ⟨alike_note hupdated rfl, rfl⟩
    | done result =>
      cases result with
      | ok _ => exact alike_writeSucceeded (alike_count hupdated _ _)
      | error e => exact alike_writeFailed (alike_count hupdated _ _) e
  | removing hook =>
    dsimp only
    rw [h.now]
    cases hook.step r.now with
    | running hook' => exact ⟨h, rfl⟩
    | crashed => exact ⟨h, rfl⟩
    | done result =>
      exact alike_finishDelivery (alike_noteReturn h (fun _ _ _ => rfl) result) .failed

/-! ### Direct deliveries -/

theorem alike_updateQueue (h : Alike request P s s' r r') (hx : r.session? s = some x)
    (hx' : r'.session? s' = some x') (ht : x.Twin request P x') {q : Queue Nat} {g : Gate}
    (hg : List.Forall₂ P q.gate.line g.line) :
    Alike request P s s' (r.updateQueue s fun _ => q)
      (r'.updateQueue s' fun _ => { q with gate := g }) :=
  alike_update h hx hx' _ _ (ht.withQueue hg)

theorem alike_askGate (h : Alike request P s s' r r') (hp : P p p') :
    AlikeAfter request P s s' (r.askGate s p) (r'.askGate s' p') := by
  obtain ⟨x, x', hx, hx', ht⟩ := h.twin
  obtain ⟨g, hq, hline⟩ := ht.queue
  simp only [askGate, hx, hx', hq, Queue.ask]
  by_cases hc : x.queue.closed = true
  · rw [if_pos hc, if_pos hc]
    exact ⟨h, rfl⟩
  · rw [if_neg hc, if_neg hc]
    have hjoin := List.rel_append hline (.cons hp .nil)
    exact ⟨alike_updateQueue h hx hx' ht (q := { x.queue with gate := x.queue.gate.join p })
      (g := g.join p') hjoin, rfl⟩

theorem alike_directReady (hP : Relator.BiUnique P) (h : Alike request P s s' r r')
    (hp : P p p') (b : Batch Nat) (kind : DeliveryKind) (run : Option Delivery) :
    r'.directReady p' ⟨s', b, kind, run⟩ = r.directReady p ⟨s, b, kind, run⟩ := by
  unfold directReady
  cases run with
  | some d => exact alike_deliveryReady hP h hp d
  | none =>
    obtain ⟨x, x', hx, hx', ht⟩ := h.twin
    obtain ⟨g, hq, hline⟩ := ht.queue
    simp only [hx, hx', hq, Gate.holds]
    exact head?_eq_of_forall₂ hP hp hline

/-- A direct delivery goes on in two registries as it would. -/
theorem alike_directStep (hP : Relator.BiUnique P) (h : Alike request P s s' r r') (hp : P p p')
    (b : Batch Nat) (kind : DeliveryKind) (run : Option Delivery) :
    Alike request P s s' (r.directStep p ⟨s, b, kind, run⟩).1
        (r'.directStep p' ⟨s', b, kind, run⟩).1 ∧
      ∃ progress : Progress Delivery Bool,
        (r.directStep p ⟨s, b, kind, run⟩).2 =
            progress.mapState (fun d => ⟨s, b, kind, some d⟩) ∧
          (r'.directStep p' ⟨s', b, kind, run⟩).2 =
            progress.mapState (fun d => ⟨s', b, kind, some d⟩) := by
  have hprogress {o o' : Registry × Progress Delivery DeliveryOutcome}
      (ho : AlikeAfter request P s s' o o') :
      Alike request P s s' (directProgress p ⟨s, b, kind, run⟩ o).1
          (directProgress p' ⟨s', b, kind, run⟩ o').1 ∧
        ∃ progress : Progress Delivery Bool,
          (directProgress p ⟨s, b, kind, run⟩ o).2 =
              progress.mapState (fun d => ⟨s, b, kind, some d⟩) ∧
            (directProgress p' ⟨s', b, kind, run⟩ o').2 =
              progress.mapState (fun d => ⟨s', b, kind, some d⟩) := by
    obtain ⟨v, progress⟩ := o
    obtain ⟨v', progress'⟩ := o'
    obtain ⟨halike, hsame⟩ := ho
    obtain rfl : progress' = progress := hsame
    cases progress' with
    | running d => exact ⟨halike, .running d, rfl, rfl⟩
    | done _ => exact ⟨alike_leave hP halike hp, .done true, rfl, rfl⟩
    | crashed => exact ⟨alike_leave hP halike hp, .crashed, rfl, rfl⟩
  unfold directStep
  cases run with
  | some d => exact hprogress (alike_deliveryStep hP h hp d)
  | none =>
    obtain ⟨x, x', hx, hx', ht⟩ := h.twin
    obtain ⟨g, hq, _⟩ := ht.queue
    simp only [hx, hx', hq]
    cases x.queue.closed with
    | true => exact ⟨alike_leave hP h hp, .done false, rfl, rfl⟩
    | false => exact hprogress (alike_beginDelivery h hp)

/-! ### The worker -/

theorem alike_workerTurn (hw : P .worker .worker) (h : Alike request P s s' r r') :
    Alike request P s s' (r.workerTurn s) (r'.workerTurn s') := by
  obtain ⟨x, x', hx, hx', ht⟩ := h.twin
  obtain ⟨g, hq, hline⟩ := ht.queue
  simp only [workerTurn, hx, hx', hq, Queue.workerTurn, Queue.ask]
  by_cases hc : x.queue.closed = true
  · rw [if_pos hc, if_pos hc]
    exact alike_note (alike_setWorker h .stopped) rfl
  · rw [if_neg hc, if_neg hc]
    have hjoin := List.rel_append hline (.cons hw .nil)
    exact alike_setWorker (alike_updateQueue h hx hx' ht
      (q := { x.queue with gate := x.queue.gate.join .worker }) (g := g.join .worker) hjoin) .inLine

theorem alike_workerProgress (hP : Relator.BiUnique P) (hw : P .worker .worker)
    {o o' : Registry × Progress Delivery DeliveryOutcome} (h : AlikeAfter request P s s' o o') :
    Alike request P s s' (workerProgress s o) (workerProgress s' o') := by
  obtain ⟨v, progress⟩ := o
  obtain ⟨v', progress'⟩ := o'
  obtain ⟨halike, hsame⟩ := h
  obtain rfl : progress' = progress := hsame
  cases progress' with
  | running d => exact alike_setWorker halike (.delivering d)
  | done _ => exact alike_workerTurn hw (alike_leave hP halike hw)
  | crashed => exact alike_setWorker (alike_leave hP halike hw) .crashed

theorem alike_workerReady (hP : Relator.BiUnique P) (hw : P .worker .worker)
    (h : Alike request P s s' r r') : r'.workerReady s' = r.workerReady s := by
  obtain ⟨x, x', hx, hx', ht⟩ := h.twin
  obtain ⟨g, hq, hline⟩ := ht.queue
  have hworker : x'.worker = x.worker := by cases ht; rfl
  simp only [workerReady, hx, hx', hq, hworker, Queue.workerReady]
  cases x.worker with
  | inLine => exact head?_eq_of_forall₂ hP hw hline
  | delivering d => exact alike_deliveryReady hP h hw d
  | _ => rfl

theorem alike_workerStep (hP : Relator.BiUnique P) (hw : P .worker .worker)
    (h : Alike request P s s' r r') :
    Alike request P s s' (r.workerStep s) (r'.workerStep s') := by
  obtain ⟨x, x', hx, hx', ht⟩ := h.twin
  obtain ⟨g, hq, hline⟩ := ht.queue
  have hworker : x'.worker = x.worker := by cases ht; rfl
  have hleft := forall₂_erase hP hw hline
  simp only [workerStep, hx, hx', hq, hworker]
  cases x.worker with
  | fresh => exact alike_workerTurn hw (alike_note h rfl)
  | inLine =>
    dsimp only [Queue.takeNext]
    cases x.queue.heap.pop? with
    | none =>
      exact alike_setWorker (alike_updateQueue h hx hx' ht (q := { x.queue with
        gate := x.queue.gate.leave .worker, signal := x.queue.signal.await })
        (g := g.leave .worker) hleft) .asleep
    | some taken =>
      obtain ⟨b, rest⟩ := taken
      dsimp only
      by_cases hc : x.queue.closed = true
      · rw [if_pos hc, if_pos hc]
        exact alike_setWorker (alike_updateQueue h hx hx' ht (q := { x.queue with
          heap := rest, gate := x.queue.gate.leave .worker, signal := x.queue.signal.await })
          (g := g.leave .worker) hleft) .asleep
      · rw [if_neg hc, if_neg hc]
        have htaken := alike_updateQueue h hx hx' ht (q := { x.queue with heap := rest }) hline
        exact alike_workerProgress hP hw (alike_beginDelivery htaken hw)
  | delivering d => exact alike_workerProgress hP hw (alike_deliveryStep hP h hw d)
  | asleep =>
    dsimp only
    by_cases hc : x.queue.closed = true
    · rw [if_pos hc, if_pos hc]
      exact alike_note (alike_setWorker h .stopped) rfl
    · rw [if_neg hc, if_neg hc]
      refine alike_workerTurn hw (alike_update h hx hx' _ _ ?_)
      rw [hq]
      exact ht.withQueue (q := { x.queue with signal := x.queue.signal.resume }) hline
  | _ => exact h

/-! ### Calls and the receiver -/

theorem alike_activate (h : Alike request P s s' r r') :
    Alike request P s s' (r.activate s).1 (r'.activate s').1 := by
  obtain ⟨x, x', hx, hx', ht⟩ := h.twin
  obtain ⟨hactive, hsame⟩ := ht.activate
  simp only [activate, hx, hx']
  rcases hres : x.activate with ⟨y, started⟩
  rcases hres' : x'.activate with ⟨y', started'⟩
  rw [hres, hres'] at hactive
  rw [hres, hres'] at hsame
  obtain rfl : started' = started := hsame
  have hput := alike_update h hx hx' (fun _ => y) (fun _ => y') hactive
  cases started' with
  | true => exact alike_note hput rfl
  | false => exact hput

theorem alike_offer (h : Alike request P s s' r r') :
    Alike request P s s' (r.offer b s).1 (r'.offer b s').1 := by
  obtain ⟨x, x', hx, hx', ht⟩ := h.twin
  obtain ⟨g, hq, hline⟩ := ht.queue
  have haccepts : x'.accepts b = x.accepts b := by cases ht; rfl
  simp only [offer, hx, hx', alike_isCancelled h, haccepts, Session.enqueue, Queue.enqueue, hq]
  split
  · exact h
  · by_cases hc : x.queue.closed = true
    · rw [if_pos hc, if_pos hc]
      exact h
    · rw [if_neg hc, if_neg hc]
      refine alike_note (alike_update h hx hx' _ _ ?_) rfl
      exact ht.withQueue (q := { x.queue with
        heap := x.queue.heap.push b, signal := x.queue.signal.notify }) hline

theorem alike_farewellReady (h : Alike request P s s' r r') (f : Farewell) :
    r'.farewellReady s' f = r.farewellReady s f := by
  cases f with
  | fresh => rfl
  | joining =>
    obtain ⟨x, x', hx, hx', ht⟩ := h.twin
    have hworker : x'.worker = x.worker := by cases ht; rfl
    simp only [farewellReady, hx, hx', Option.map_some, hworker]
  | saying hook => simp only [farewellReady, h.now]

theorem alike_farewellStep (h : Alike request P s s' r r') (f : Farewell) :
    AlikeAfter request P s s' (r.farewellStep s f) (r'.farewellStep s' f) := by
  have hcalled {v v' : Registry} (hv : Alike request P s s' v v') :
      AlikeAfter (α := Progress Farewell (Except HookError Unit)) request P s s'
        ((v.callAfter s).1, .running (.saying (v.callAfter s).2))
        ((v'.callAfter s').1, .running (.saying (v'.callAfter s').2)) := by
    obtain ⟨halike, hhook⟩ := alike_callAfter hv
    exact ⟨halike, by rw [hhook]⟩
  obtain ⟨x, x', hx, hx', ht⟩ := h.twin
  obtain ⟨g, hq, hline⟩ := ht.queue
  have hworker : x'.worker = x.worker := by cases ht; rfl
  cases f with
  | fresh =>
    have hjoined := alike_updateQueue h hx hx' ht (q := x.queue.close.join.1) hline
    have hjoin : Queue.join { x.queue.close with gate := g } =
        ({ x.queue.close.join.1 with gate := g }, x.queue.close.join.2) := rfl
    have hclose : Queue.close { x.queue with gate := g } = { x.queue.close with gate := g } := rfl
    simp only [farewellStep, hx, hx', hq, hclose, hjoin]
    cases x.queue.close.join.2 with
    | true => exact ⟨hjoined, rfl⟩
    | false => exact hcalled hjoined
  | joining =>
    simp only [farewellStep, hx, hx', Option.map_some, hworker]
    apply hcalled
    cases x.worker with
    | crashed => exact alike_note h rfl
    | _ => exact h
  | saying hook =>
    simp only [farewellStep, h.now]
    cases hook.step r.now with
    | running hook' => exact ⟨h, rfl⟩
    | crashed => exact ⟨h, rfl⟩
    | done result => exact ⟨h, rfl⟩

theorem alike_receive (h : Alike request P s s' r r') :
    Alike request P s s' (((r.receive? s).map (·.2)).getD r)
      (((r'.receive? s').map (·.2)).getD r') := by
  obtain ⟨x, x', hx, hx', ht⟩ := h.twin
  rcases ht.sink_twin.exists_eq with ⟨outcomes, hk, hk'⟩ | ⟨c, ps, hk, hk', hsenders⟩
  · simp only [receive?, hx, hx', Option.map_some, hk'.trans hk, hk]
    exact h
  · simp only [receive?, hx, hx', Option.map_some, hk', hk, Channel.receive?]
    cases c.buffer with
    | nil => exact h
    | cons b rest =>
      exact alike_update h hx hx' _ _ (ht.withSink (.channel (c := { c with buffer := rest })
        hsenders))

theorem alike_dropReceiver (h : Alike request P s s' r r') :
    Alike request P s s' (r.dropReceiver s) (r'.dropReceiver s') := by
  obtain ⟨x, x', hx, hx', ht⟩ := h.twin
  apply alike_update h hx hx'
  rcases ht.sink_twin.exists_eq with ⟨outcomes, hk, hk'⟩ | ⟨c, ps, hk, hk', hsenders⟩
  · simp only [hk'.trans hk, hk]
    exact ht
  · simp only [hk', hk]
    exact ht.withSink (.channel (c := c.close) hsenders)

end Registry

end Multicast
