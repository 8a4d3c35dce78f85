import Multicast.Proofs.Registry.Leaving
import Multicast.Proofs.Traffic.Hand

/-! Deliveries as transits. A delivery turns the batch for which it stood in line into a write under
way, and that into a turn taken; a direct delivery does so for a call, and a worker for itself. -/

namespace Multicast

/-! ### What is in hand -/

/-- What a delivery that has gone on leaves in hand. -/
def Progress.heldBy (path : DeliveryKind) (s : SessionId) :
    Progress Delivery DeliveryOutcome → Multiset Hand
  | .running d => {.busy path s d}
  | .done _ => {.reached path}
  | .crashed => {.lost}

/-- What a direct delivery has in hand. -/
def Direct.hand (path : DeliveryKind) (d : Direct) : Hand :=
  match d.delivery with
  | some run => .busy path d.session run
  | none => .line path d.kind d.session d.batch

/-- What a direct delivery that has gone on leaves in hand. A queue that was closed leaves
nothing. -/
def Progress.directHands (path : DeliveryKind) : Progress Direct Bool → Multiset Hand
  | .running d => {d.hand path}
  | .done true => {.reached path}
  | .done false => 0
  | .crashed => {.lost}

/-- What a worker has in hand. -/
def WorkerPoint.hands (s : SessionId) : WorkerPoint Delivery → Multiset Hand
  | .delivering d => {.busy .live s d}
  | .crashed => {.lost}
  | .absent | .fresh | .inLine | .asleep | .stopped => 0

namespace Metrics

theorem aside_removal (n k : Nat) (reason : RemovalReason) :
    Aside fun m => (m.setSessions n).sessionsRemoved reason k := by
  intro m
  refine ⟨rfl, ?_⟩
  intro c hc
  have hne : Counter.removed reason ≠ c := by
    rintro rfl
    exact hc
  show ((m.setSessions n).add (.removed reason) k).value c = m.value c
  rw [value_add, if_neg hne]
  rfl

end Metrics

namespace Registry

variable {r u v : Registry} {s : SessionId} {x : Session} {p : Party} {b : Batch Nat} {d : Delivery}
  {kind path : DeliveryKind} {G G' : Multiset Hand}

/-! ### Leaving -/

theorem carries_detach (h : Carries r G u G') (reason : RemovalReason) :
    Carries r G (u.detach s reason).1 G' := by
  refine h.trans ?_
  rcases u.present_or_gone s with ⟨x, hx, hstage⟩ | hgone
  · have hleft : Carries u G'
        (u.put s x.remove [.discarded (u.nameOf s) x.queue.heap.toList]) G' :=
      .of_transit fun _ => .discard _ hx
    have hroster := hleft.trans (.of_transit fun _ =>
      .roster (u.members.filter (· != s)) u.stopped)
    unfold detach
    rw [markRemoved_eq hx hstage]
    exact (hroster.count (Metrics.aside_removal _ 1 reason)).note id
  · rw [detach_of_removed hgone]
    exact .refl u G'

theorem carries_callAfter (h : Carries r G u G') : Carries r G (u.callAfter s).1 G' := by
  unfold callAfter
  split
  · exact h
  · exact h.note id

theorem carries_noteReturn (h : Carries r G u G') {failure : SessionName → HookError → Event}
    (hf : ∀ who e, ¬ (failure who e).IsTraffic) (result : Except HookError Unit) :
    Carries r G (u.noteReturn s failure result) G' := by
  cases result with
  | ok _ => exact h.note id
  | error e => exact (h.note id).note (hf _ e)

/-! ### Deliveries -/

/-- A delivery that begins turns the batch in hand into a write, unless it is stale. -/
theorem carries_beginDelivery (hx : r.session? s = some x) :
    Carries r {.line path kind s b} (r.beginDelivery s p b kind).1
      ((r.beginDelivery s p b kind).2.heldBy path s) := by
  unfold beginDelivery
  rw [hx]
  dsimp only
  split
  · rename_i hcond
    -- a ping is a keep-alive and never stale
    have hkind : kind ≠ .ping := by
      rintro rfl
      simp at hcond
    have hskip : Carries r {.line path kind s b}
        ((r.note (.staleSkipped (r.nameOf s) kind b x.cursor.position)).count (·.staleSkip kind))
        {.reached path} := .of_hand fun _ => .skip path kind b _ _ hkind
    exact hskip.note id
  · rcases x.sink.startWrite r.now p with ⟨sink, point⟩
    dsimp only
    rw [update_eq_put hx]
    let d : Delivery := {
      kind := kind
      keepAlive := decide (kind = .ping) || b.isPing
      frame := r.hooks.process x b
      begun := r.now
      point := .writing point }
    exact .of_hand fun _ => .begin path b d _ sink hx rfl rfl rfl

/-- A write that succeeds is recorded, counted and told at once. -/
theorem carries_writeSucceeded (hx : r.session? s = some x) (hw : d.isWriting = true)
    (took : Duration) : Carries r {.busy path s d}
      ((r.count (·.writeTook d.kind took)).writeSucceeded s d).1 {.reached path} := by
  have hput : (if d.keepAlive then (r.count (·.writeTook d.kind took)).update s Session.recordWrite
      else ((r.count (·.writeTook d.kind took)).update s Session.recordWrite).update s
        (·.recordDelivery d.frame)) =
      (r.count (·.writeTook d.kind took)).put s (x.served d) [] := by
    have hx' : Registry.session? (r.count (·.writeTook d.kind took)) s = some x := hx
    unfold Session.served
    cases d.keepAlive with
    | true => exact update_eq_put hx' _
    | false =>
      simp only [Bool.false_eq_true, if_false]
      rw [update_eq_put (session?_update hx' _), update_eq_put hx', put_put]
      rfl
  have hsucceed (peer : String) : Carries r {.busy path s d}
      ((r.put s (x.served d) [.writeSucceeded ⟨s, peer⟩ d.kind d.keepAlive d.frame]).count
        fun m => (m.writeTook d.kind took).batchDelivered d.kind) {.reached path} :=
    .of_hand fun _ => .succeed path d _ took hx rfl hw
  unfold writeSucceeded finishDelivery
  dsimp only
  rw [hput]
  exact (hsucceed _).note id

/-- A write that fails is counted and told before the subscriber is removed for it. -/
theorem carries_writeFailed (hw : d.isWriting = true) (took : Duration) (e : SinkError) :
    Carries r {.busy path s d} ((r.count (·.writeTook d.kind took)).writeFailed s d e).1
      (((r.count (·.writeTook d.kind took)).writeFailed s d e).2.heldBy path s) := by
  have hfail (hook : HookRun) : Carries r {.busy path s d}
      (((r.count (·.writeTook d.kind took)).note
        (.writeFailed ((r.count (·.writeTook d.kind took)).nameOf s) d.kind e)).count
          (·.sinkFailure d.kind)) {.busy path s { d with point := .removing hook }} :=
    .of_hand fun _ => .fail path d _ _ e took hw rfl rfl rfl
  unfold writeFailed
  dsimp only
  generalize ((r.count (·.writeTook d.kind took)).note
    (.writeFailed ((r.count (·.writeTook d.kind took)).nameOf s) d.kind e)).count
      (·.sinkFailure d.kind) = u at *
  have hleft (hook : HookRun) := carries_detach (s := s) (hfail hook) .sinkFailure
  rcases hdetach : u.detach s .sinkFailure with ⟨w, found⟩
  rw [hdetach] at hleft
  cases found with
  | true => exact carries_callAfter (hleft _)
  | false =>
    -- somebody else has removed the subscriber, so that no callback is left to wait for
    have hover : Carries w {.busy path s { d with point := .removing ⟨0, .succeed⟩ }} w
        {.reached path} := .of_hand fun _ => .finish path _ rfl
    exact ((hleft _).trans hover).note id

theorem carries_deliveryStep : Carries r {.busy path s d} (r.deliveryStep s p d).1
    ((r.deliveryStep s p d).2.heldBy path s) := by
  unfold deliveryStep
  cases hpoint : d.point with
  | writing point =>
    have hw : d.isWriting = true := by simp only [Delivery.isWriting, hpoint]
    dsimp only
    cases hx : r.session? s with
    | none => exact (Carries.refl r _).crash
    | some x =>
      dsimp only
      rcases x.sink.step r.now p d.frame point with ⟨sink, progress⟩
      have hsink : Carries r {.busy path s d} (r.update s fun x => { x with sink := sink })
          {.busy path s d} := (Carries.refl r _).sink fun _ => sink
      have hnow := session?_update hx fun x => { x with sink := sink }
      dsimp only
      -- what the sink has become does not matter from here on
      generalize (r.update s fun x => { x with sink := sink }) = w at *
      cases progress with
      | running point' =>
        refine hsink.trans (.of_hand fun _ => .goOn path d _ rfl rfl ?_)
        rw [hw]
        rfl
      | crashed => exact (hsink.note id).crash
      | done result =>
        cases result with
        | ok _ => exact hsink.trans (carries_writeSucceeded hnow hw _)
        | error e => exact hsink.trans (carries_writeFailed hw _ e)
  | removing hook =>
    have hw : d.isWriting = false := by simp only [Delivery.isWriting, hpoint]
    dsimp only
    cases hook.step r.now with
    | running hook' =>
      refine .of_hand fun _ => .goOn path d _ rfl rfl ?_
      rw [hw]
      rfl
    | crashed => exact (Carries.refl r _).crash
    | done result =>
      have hover : Carries r {.busy path s d} r {.reached path} :=
        .of_hand fun _ => .finish path d hw
      exact (carries_noteReturn hover (fun _ _ => id) result).note id

/-! ### Direct deliveries -/

/-- A call takes up a batch when it asks for the gate of an open queue. -/
theorem carries_askGate (h : r.askGate s p = (v, true)) (hpath : path ≠ .live)
    (hcancelled : r.isCancelled s = false)
    (hping : path = .ping → b = ((r.session? s).map (·.pingFrame)).getD .empty) :
    Carries r 0 v {.line path path s b} := by
  unfold askGate at h
  cases hx : r.session? s with
  | none => simp [hx] at h
  | some x =>
    rw [hx] at h hping
    dsimp only at h
    cases hc : x.queue.closed with
    | true => simp [Queue.ask, hc] at h
    | false =>
      simp only [Queue.ask, hc, Bool.false_eq_true, if_false, Prod.mk.injEq, and_true] at h
      subst h
      have hjoin : Carries r 0 r {.line path path s b} :=
        .of_gain fun _ => .join path b hx hpath hcancelled hping
      refine hjoin.updateQueue ?_
      intro y hy
      obtain rfl := Option.some.inj (hx.symm.trans hy)
      rfl

theorem carries_directProgress {e : Direct} {o : Registry × Progress Delivery DeliveryOutcome}
    (h : Carries r G o.1 (o.2.heldBy path e.session)) :
    Carries r G (directProgress p e o).1 ((directProgress p e o).2.directHands path) := by
  obtain ⟨w, progress⟩ := o
  cases progress with
  | running run => exact h
  | done _ => exact h.leave p
  | crashed => exact h.leave p

theorem carries_directStep (hpath : path ≠ .live) (e : Direct) :
    Carries r {e.hand path} (r.directStep p e).1 ((r.directStep p e).2.directHands path) := by
  unfold directStep Direct.hand
  cases e.delivery with
  | some run => exact carries_directProgress carries_deliveryStep
  | none =>
    -- a direct delivery that finds nobody, or a closed queue, gives up
    have hquit : Carries r {.line path e.kind e.session e.batch} r 0 :=
      .of_loss fun _ => .quit path e.kind e.batch hpath
    dsimp only
    cases hx : r.session? e.session with
    | none => exact hquit
    | some x =>
      dsimp only
      split
      · exact hquit.leave p
      · exact carries_directProgress (carries_beginDelivery hx)

theorem carries_abandon (h : Carries r G u G') (e : Direct) : Carries r G (u.abandon p e) G' :=
  (h.sink fun x => x.sink.giveUp p).leave p

/-! ### The workers -/

/-- A worker goes on from `r` to `v`, and what it had in hand goes with it. -/
def WorksOff (s : SessionId) (G : Multiset Hand) (r v : Registry) : Prop :=
  ∃ u w, Carries r G u (WorkerPoint.hands s w) ∧ v = u.setWorker s w

theorem Carries.keeps (h : Carries r G v G') : r.SameTasks v := (h 0).keeps

theorem Carries.known (h : Carries r G v G') (hx : r.session? s = some x) :
    ∃ y, v.session? s = some y := by
  have hworker := h.keeps.worker s
  rw [hx, Option.map_some] at hworker
  obtain ⟨y, hy, -⟩ := Option.map_eq_some_iff.mp hworker
  exact ⟨y, hy⟩

/-- At the head of its loop a worker has nothing in hand. -/
theorem worksOff_workerTurn (h : Carries r G u 0) (hx : u.session? s = some x) :
    WorksOff s G r (u.workerTurn s) := by
  unfold workerTurn Queue.workerTurn Queue.ask
  rw [hx]
  dsimp only
  cases x.queue.closed with
  | true =>
    simp only [if_true]
    exact ⟨u.note (.workerStopped (u.nameOf s)), .stopped, h.note id, rfl⟩
  | false =>
    simp only [Bool.false_eq_true, if_false]
    refine ⟨_, .inLine, h.updateQueue ?_, rfl⟩
    intro y hy
    obtain rfl := Option.some.inj (hx.symm.trans hy)
    rfl

theorem worksOff_workerProgress {o : Registry × Progress Delivery DeliveryOutcome}
    (h : Carries r G o.1 (o.2.heldBy .live s)) (hx : r.session? s = some x) :
    WorksOff s G r (workerProgress s o) := by
  obtain ⟨w, progress⟩ := o
  cases progress with
  | running run => exact ⟨w, .delivering run, h, rfl⟩
  | crashed => exact ⟨w.leave s .worker, .crashed, h.leave .worker, rfl⟩
  | done _ =>
    -- a live batch was reported when it was published
    have hrest : Carries w {.reached .live} w 0 := .of_loss fun _ => .rest
    have hleft : Carries r G (w.leave s .worker) 0 := (h.trans hrest).leave .worker
    obtain ⟨y, hy⟩ := hleft.known hx
    exact worksOff_workerTurn hleft hy

/-- A worker that is woken, or has the gate, takes the next batch and delivers it. -/
theorem worksOff_workerStep (hx : r.session? s = some x)
    (hempty : x.queue.closed = true → x.queue.heap.contents = 0) :
    WorksOff s (WorkerPoint.hands s x.worker) r (r.workerStep s) := by
  have hstay {w : WorkerPoint Delivery} (hw : x.worker = w) :
      WorksOff s (WorkerPoint.hands s w) r r := by
    refine ⟨r, w, .refl r _, ?_⟩
    rw [← hw, setWorker, update_eq_put hx, put_self hx]
    rfl
  unfold workerStep
  rw [hx]
  dsimp only
  cases hw : x.worker with
  | fresh => exact worksOff_workerTurn ((Carries.refl r 0).note id) hx
  | delivering run => exact worksOff_workerProgress carries_deliveryStep hx
  | asleep =>
    dsimp only
    split
    · exact ⟨r.note (.workerStopped (r.nameOf s)), .stopped, (Carries.refl r 0).note id, rfl⟩
    · have hwoken : Carries r 0 (r.updateQueue s fun q => { q with signal := q.signal.resume }) 0 :=
        (Carries.refl r 0).updateQueue fun _ _ => rfl
      obtain ⟨y, hy⟩ := hwoken.known hx
      exact worksOff_workerTurn hwoken hy
  | inLine =>
    dsimp only
    unfold Queue.takeNext
    cases hpop : x.queue.heap.pop? with
    | none =>
      refine ⟨_, .asleep, (Carries.refl r 0).updateQueue ?_, rfl⟩
      intro y hy
      obtain rfl := Option.some.inj (hx.symm.trans hy)
      rfl
    | some first =>
      obtain ⟨b, rest⟩ := first
      -- a closed queue has nothing pending, so that this one is open
      have hopen : ¬ x.queue.closed = true := by
        intro hclosed
        rw [(Heap.pop?_eq_none_iff _).mpr (hempty hclosed)] at hpop
        cases hpop
      have htake : Carries r 0 (r.put s (x.withHeap rest) []) {.line .live .live s b} :=
        .of_gain fun _ => .take b rest hx hpop
      have hnow := session?_put_self hx (x.withHeap rest) []
      have hput : (r.updateQueue s fun _ => (x.withHeap rest).queue) =
          r.put s (x.withHeap rest) [] := update_eq_put hx _
      simp only [if_neg hopen]
      show WorksOff s 0 r (workerProgress s (Registry.beginDelivery
        (r.updateQueue s fun _ => (x.withHeap rest).queue) s .worker b .live))
      rw [hput]
      exact worksOff_workerProgress (htake.trans (carries_beginDelivery hnow)) hx
  | absent => exact hstay hw
  | stopped => exact hstay hw
  | crashed => exact hstay hw

end Registry

end Multicast
