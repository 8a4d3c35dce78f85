import Multicast.Proofs.Registry.Series

/-! What the writes to a subscriber leave behind: its sink, the write that its worker has under way,
the writes that have succeeded and those that have failed. Most of what happens in a registry
touches none of this. -/

namespace Multicast

/-- The write of a party that is under way. -/
def Post.write? : Post → Option Delivery
  | .busy d => if d.isWriting then some d else none
  | .away | .waiting => none

/-- The write that a worker has under way. -/
def WorkerPoint.write? (w : WorkerPoint Delivery) : Option Delivery := w.post.write?

/-- Why a write to the subscriber has failed, if the event tells of that. -/
def Event.failure? (s : SessionId) : Event → Option SinkError
  | .writeFailed who _ e => if who.id = s then some e else none
  | _ => none

/-- What the writes to a subscriber leave behind. -/
structure Outlet where
  /-- There is none as long as the subscriber is not registered. -/
  sink : Option Sink
  writer : Option Delivery
  /-- The writes that have succeeded, the latest first. -/
  written : List WriteMark
  /-- Why writes have failed, the latest first. -/
  failures : List SinkError

namespace Registry

/-- Why writes to a subscriber have failed, the latest first. -/
def failures (r : Registry) (s : SessionId) : List SinkError := r.history.filterMap (·.failure? s)

def outlet (r : Registry) (s : SessionId) : Outlet where
  sink := (r.session? s).map Session.sink
  writer := (r.session? s).bind (·.worker.write?)
  written := r.written s
  failures := r.failures s

variable {r u v : Registry} {s t : SessionId} {x : Session} {p : Party} {b : Batch Nat}
  {kind : DeliveryKind} {d : Delivery}

/-! ### Small pieces -/

theorem outlet_of_session? (hx : r.session? s = some x) :
    r.outlet s = ⟨some x.sink, x.worker.write?, r.written s, r.failures s⟩ := by
  rw [outlet, hx]
  rfl

theorem written_note {e : Event} (he : ∀ m, e.mark? s = some m → m.isWritten = false) :
    (r.note e).written s = r.written s := by
  unfold written log
  cases hm : e.mark? s with
  | none => exact congrArg (List.filter _) (List.filterMap_cons_none hm)
  | some m =>
    have hlog : (r.note e).history.filterMap (·.mark? s) =
        m :: r.history.filterMap (·.mark? s) := List.filterMap_cons_some hm
    rw [hlog, List.filter_cons_of_neg (by simp [he m hm])]

theorem failures_note {e : Event} (he : e.failure? s = none) :
    (r.note e).failures s = r.failures s := List.filterMap_cons_none he

/-- An event that tells neither of a write that succeeds nor of one that fails. -/
theorem outlet_note_of_unwritten {e : Event}
    (hm : ∀ m, e.mark? s = some m → m.isWritten = false) (hf : e.failure? s = none) :
    (r.note e).outlet s = r.outlet s := by
  rw [outlet, written_note hm, failures_note hf]
  rfl

theorem written_note_of_unmarked {e : Event} (hm : e.mark? s = none) :
    (r.note e).written s = r.written s := by
  refine written_note fun m hsome => ?_
  rw [hm] at hsome
  cases hsome

theorem outlet_note {e : Event} (hm : e.mark? s = none) (hf : e.failure? s = none) :
    (r.note e).outlet s = r.outlet s := by
  rw [outlet, written_note_of_unmarked hm, failures_note hf]
  rfl

theorem outlet_count (f : Metrics → Metrics) : (r.count f).outlet s = r.outlet s := rfl

theorem outlet_setCall (i : Nat) (c : Call) : (r.setCall i c).outlet s = r.outlet s := rfl

theorem outlet_update_of_ne (f : Session → Session) (hts : t ≠ s) :
    (r.update t f).outlet s = r.outlet s := by
  have hsame : (r.update t f).session? s = r.session? s := List.getElem?_modify_ne f r.sessions hts
  rw [outlet, hsame]
  rfl

/-- A change of a subscriber that touches neither its sink nor a write of its worker. -/
theorem outlet_update {f : Session → Session} (hsink : ∀ x, (f x).sink = x.sink)
    (hworker : ∀ x, r.session? t = some x → (f x).worker.write? = x.worker.write?) :
    (r.update t f).outlet s = r.outlet s := by
  by_cases hts : t = s
  · subst hts
    cases hx : r.session? t with
    | none => rw [update_of_none hx]
    | some x =>
      rw [outlet_of_session? (session?_update hx f), outlet_of_session? hx, hsink, hworker x hx]
      rfl
  · exact outlet_update_of_ne f hts

theorem outlet_updateQueue (f : Queue Nat → Queue Nat) :
    (r.updateQueue t f).outlet s = r.outlet s :=
  outlet_update (fun _ => rfl) fun _ _ => rfl

theorem outlet_leave : (r.leave t p).outlet s = r.outlet s := outlet_updateQueue _

/-! ### Removal -/

theorem outlet_markRemoved : (r.markRemoved t).1.outlet s = r.outlet s := by
  unfold markRemoved
  split
  · rfl
  · split
    · rfl
    all_goals
      exact (outlet_note rfl rfl).trans (outlet_update (fun _ => rfl) fun _ _ => rfl)

theorem outlet_detach (reason : RemovalReason) : (r.detach t reason).1.outlet s = r.outlet s := by
  have hmarked := outlet_markRemoved (r := r) (s := s) (t := t)
  unfold detach
  split
  · rename_i w hw
    rw [hw] at hmarked
    exact hmarked
  · rename_i w hw
    rw [hw] at hmarked
    exact (outlet_note rfl rfl).trans hmarked

theorem outlet_callAfter : (r.callAfter t).1.outlet s = r.outlet s := by
  unfold callAfter
  split
  · rfl
  · exact outlet_note rfl rfl

theorem outlet_noteReturn {failure : SessionName → HookError → Event}
    (hm : ∀ who e, (failure who e).mark? s = none) (hf : ∀ who e, (failure who e).failure? s = none)
    (result : Except HookError Unit) : (r.noteReturn t failure result).outlet s = r.outlet s := by
  cases result with
  | ok _ => exact outlet_note rfl rfl
  | error e => exact (outlet_note (hm _ e) (hf _ e)).trans (outlet_note rfl rfl)

theorem outlet_markAllRemoved (ss : List SessionId) :
    (markAllRemoved ss r).1.outlet s = r.outlet s := by
  induction ss generalizing r with
  | nil => rfl
  | cons t rest ih =>
    have hmarked := outlet_markRemoved (r := r) (s := s) (t := t)
    rw [markAllRemoved]
    split
    all_goals
      rename_i w hw
      rw [hw] at hmarked
      exact ih.trans hmarked

theorem outlet_evacuate : r.evacuate.1.outlet s = r.outlet s := outlet_markAllRemoved _

theorem outlet_stop : r.stop.outlet s = r.outlet s := by
  unfold stop
  split
  · rfl
  · exact outlet_evacuate

theorem outlet_drop : r.drop.outlet s = r.outlet s := by
  unfold drop
  split
  · rfl
  · exact (outlet_note rfl rfl).trans outlet_evacuate

theorem outlet_farewellStep (f : Farewell) : (r.farewellStep t f).1.outlet s = r.outlet s := by
  unfold farewellStep
  split
  · split
    · rfl
    · dsimp only
      split
      · exact outlet_updateQueue _
      · exact outlet_callAfter.trans (outlet_updateQueue _)
  · dsimp only
    split
    · exact outlet_callAfter.trans (outlet_note rfl rfl)
    · exact outlet_callAfter
  · split <;> rfl

theorem outlet_noteCrashes (is : List Nat) : (noteCrashes is r).outlet s = r.outlet s := by
  induction is generalizing r with
  | nil => rfl
  | cons i rest ih =>
    rw [noteCrashes]
    split
    · exact ih.trans (outlet_note rfl rfl)
    · exact ih

theorem outlet_nextSweep (removed : Nat) (ss : List SessionId) :
    (r.nextSweep removed ss).1.outlet s = r.outlet s := by
  induction ss generalizing r with
  | nil =>
    show (if removed > 0 then r.note (.swept removed) else r).outlet s = r.outlet s
    split
    · exact outlet_note rfl rfl
    · rfl
  | cons t rest ih =>
    have hdetached := outlet_detach (r := r) (s := s) (t := t) .cancelled
    rw [nextSweep]
    split
    · rename_i w hw
      rw [hw] at hdetached
      exact outlet_callAfter.trans hdetached
    · exact ih

theorem outlet_sweepStep (pass : SweepPass) : (r.sweepStep pass).1.outlet s = r.outlet s := by
  unfold sweepStep
  split
  · rfl
  · rfl
  · exact (outlet_nextSweep _ _).trans (outlet_noteReturn (fun _ _ => rfl) (fun _ _ => rfl) _)

/-! ### Publishing and asking for the gate -/

/-- Activation starts the worker of a subscriber that has none. -/
theorem outlet_activate
    (hw : ∀ x, r.session? t = some x → x.stage = .registered → x.worker = .absent) :
    (r.activate t).1.outlet s = r.outlet s := by
  unfold activate
  split
  · rfl
  · rename_i x hx
    have hsame (y : Session) (hy : x.activate.1 = y) :
        (r.update t fun _ => y).outlet s = r.outlet s := by
      by_cases hts : t = s
      · subst hts
        obtain ⟨_, _, _, _, heq⟩ := x.exists_activate_eq
        have hwrites : y.worker.write? = x.worker.write? := by
          rw [← hy]
          unfold Session.activate
          cases hstage : x.stage with
          | active | removed => rfl
          | registered =>
            unfold Queue.start
            cases (x.queue.closed || x.queue.started) with
            | true => rfl
            | false =>
              rw [hw x hx hstage]
              rfl
        have hsink : y.sink = x.sink := by rw [← hy, heq]
        rw [outlet_of_session? (session?_update hx _), outlet_of_session? hx, hsink, hwrites]
        rfl
      · exact outlet_update_of_ne _ hts
    split
    all_goals
      rename_i y hy
      have hupdate := hsame y (by rw [hy])
    · exact (outlet_note rfl rfl).trans hupdate
    · exact hupdate

theorem outlet_offer : (r.offer b t).1.outlet s = r.outlet s := by
  unfold offer
  split
  · rfl
  · rename_i x hx
    split
    · rfl
    · split
      · rename_i y hy
        have hqueued : y = { x with queue := (x.queue.enqueue b).1 } :=
          (congrArg Prod.fst hy).symm
        have hupdate : (r.update t fun _ => y).outlet s = r.outlet s := by
          by_cases hts : t = s
          · subst hts
            rw [outlet_of_session? (session?_update hx _), outlet_of_session? hx, hqueued]
            rfl
          · exact outlet_update_of_ne _ hts
        exact (outlet_note rfl rfl).trans hupdate
      · rfl

theorem outlet_offerAll (ss : List SessionId) : (offerAll b ss r).1.outlet s = r.outlet s := by
  induction ss generalizing r with
  | nil => rfl
  | cons t rest ih =>
    have hoffer := outlet_offer (r := r) (s := s) (t := t) (b := b)
    rw [offerAll]
    split
    all_goals
      rename_i w hw
      rw [hw] at hoffer
      exact ih.trans hoffer

theorem outlet_publishLive : (r.publishLive b).1.outlet s = r.outlet s := by
  unfold publishLive
  split
  · exact outlet_offerAll _
  · rfl

theorem outlet_askGate : (r.askGate t p).1.outlet s = r.outlet s := by
  unfold askGate
  split
  · rfl
  · split
    · exact outlet_updateQueue _
    · rfl

theorem outlet_nextBackfill (attempted : Nat) (ss : List SessionId) :
    (r.nextBackfill p b attempted ss).1.outlet s = r.outlet s := by
  induction ss with
  | nil => rfl
  | cons t rest ih =>
    have hasked := outlet_askGate (r := r) (s := s) (t := t) (p := p)
    rw [nextBackfill]
    split
    · exact ih
    · split
      · rename_i w hw
        rw [hw] at hasked
        exact hasked
      · exact ih

theorem outlet_askPings (ss : List SessionId) : (r.askPings p ss).1.outlet s = r.outlet s := by
  induction ss generalizing r with
  | nil => rfl
  | cons t rest ih =>
    have hasked := outlet_askGate (r := r) (s := s) (t := t) (p := p)
    rw [askPings]
    dsimp only
    split
    · rename_i w hw
      rw [hw] at hasked
      exact ih.trans hasked
    · exact ih

theorem outlet_closePings (ps : List PingPoint) :
    (r.closePings ps).1.outlet s = r.outlet s := by
  unfold closePings
  split <;> rfl

theorem outlet_beginPings : (r.beginPings p).1.outlet s = r.outlet s :=
  (outlet_closePings _).trans (outlet_askPings _)

theorem outlet_enrol {request : Subscription} (hx : r.session? s = some x) :
    (r.enrol request).1.outlet s = r.outlet s := by
  have hne : s ≠ r.sessions.length := (ne_of_session?_eq_none (session?_length r) hx).symm
  have hsame : (r.enrol request).1.session? s = some x := by
    rw [session?_enrol, if_neg hne, hx]
  rw [outlet_of_session? hsame, outlet_of_session? hx]
  rfl

/-! ### What others do -/

theorem outlet_finishDelivery (o : DeliveryOutcome) :
    (r.finishDelivery t o).1.outlet s = r.outlet s := outlet_note rfl rfl

theorem outlet_beginDelivery_of_ne (hts : t ≠ s) :
    (r.beginDelivery t p b kind).1.outlet s = r.outlet s := by
  unfold beginDelivery
  split
  · rfl
  · dsimp only
    split
    · exact (outlet_finishDelivery _).trans ((outlet_count _).trans (outlet_note rfl rfl))
    · refine (outlet_note ?_ rfl).trans (outlet_update_of_ne _ hts)
      exact if_neg hts

theorem outlet_writeSucceeded_of_ne (hts : t ≠ s) :
    (r.writeSucceeded t d).1.outlet s = r.outlet s := by
  have hrecorded : (r.update t Session.recordWrite).outlet s = r.outlet s :=
    outlet_update_of_ne _ hts
  unfold writeSucceeded
  dsimp only
  refine ((outlet_finishDelivery _).trans (outlet_note ?_ rfl)).trans ?_
  · exact if_neg hts
  · split
    · exact hrecorded
    · exact (outlet_update_of_ne _ hts).trans hrecorded

/-- What follows on a failed write, apart from its being told. -/
theorem outlet_writeFailed (e : SinkError) : (r.writeFailed t d e).1.outlet s =
    (r.note (.writeFailed (r.nameOf t) d.kind e)).outlet s := by
  unfold writeFailed
  dsimp only
  have hdetached := outlet_detach (r := (r.note (.writeFailed (r.nameOf t) d.kind e)).count
    (·.sinkFailure d.kind)) (s := s) (t := t) .sinkFailure
  split
  · rename_i w hw
    rw [hw] at hdetached
    exact outlet_callAfter.trans hdetached
  · rename_i w hw
    rw [hw] at hdetached
    exact (outlet_finishDelivery _).trans hdetached

theorem outlet_deliveryStep_of_ne (hts : t ≠ s) :
    (r.deliveryStep t p d).1.outlet s = r.outlet s := by
  unfold deliveryStep
  split
  · split
    · rfl
    · rename_i x hx
      rcases x.sink.step r.now p d.frame _ with ⟨sink, progress⟩
      have hsink : (r.update t fun x => { x with sink := sink }).outlet s = r.outlet s :=
        outlet_update_of_ne _ hts
      dsimp only
      split
      · exact hsink
      · refine (outlet_note ?_ rfl).trans hsink
        exact if_neg hts
      · split
        · exact (outlet_writeSucceeded_of_ne hts).trans hsink
        · refine ((outlet_writeFailed _).trans (outlet_note rfl ?_)).trans hsink
          exact if_neg hts
  · split
    · rfl
    · rfl
    · exact (outlet_finishDelivery _).trans
        (outlet_noteReturn (fun _ _ => rfl) (fun _ _ => rfl) _)

theorem outlet_directProgress {e : Direct} {o : Registry × Progress Delivery DeliveryOutcome} :
    (directProgress p e o).1.outlet s = o.1.outlet s := by
  obtain ⟨w, progress⟩ := o
  cases progress with
  | running run => rfl
  | done _ | crashed => exact outlet_leave

theorem outlet_directStep_of_ne {e : Direct} (hts : e.session ≠ s) :
    (r.directStep p e).1.outlet s = r.outlet s := by
  unfold directStep
  split
  · exact outlet_directProgress.trans (outlet_deliveryStep_of_ne hts)
  · split
    · rfl
    · split
      · exact outlet_leave
      · exact outlet_directProgress.trans (outlet_beginDelivery_of_ne hts)

theorem outlet_abandon_of_ne {e : Direct} (hts : e.session ≠ s) :
    (r.abandon p e).outlet s = r.outlet s :=
  outlet_leave.trans (outlet_update_of_ne _ hts)

theorem outlet_setWorker_of_ne (w : WorkerPoint Delivery) (hts : t ≠ s) :
    (r.setWorker t w).outlet s = r.outlet s := outlet_update_of_ne _ hts

theorem outlet_workerTurn_of_ne (hts : t ≠ s) : (r.workerTurn t).outlet s = r.outlet s := by
  unfold workerTurn
  split
  · rfl
  · split
    · exact (outlet_setWorker_of_ne _ hts).trans (outlet_updateQueue _)
    · exact (outlet_note rfl rfl).trans (outlet_setWorker_of_ne _ hts)

theorem outlet_workerProgress_of_ne {o : Registry × Progress Delivery DeliveryOutcome}
    (hts : t ≠ s) : (workerProgress t o).outlet s = o.1.outlet s := by
  obtain ⟨w, progress⟩ := o
  cases progress with
  | running run => exact outlet_setWorker_of_ne _ hts
  | done _ => exact (outlet_workerTurn_of_ne hts).trans outlet_leave
  | crashed => exact (outlet_setWorker_of_ne _ hts).trans outlet_leave

theorem outlet_workerStep_of_ne (hts : t ≠ s) : (r.workerStep t).outlet s = r.outlet s := by
  unfold workerStep
  split
  · rfl
  · split
    · exact (outlet_workerTurn_of_ne hts).trans (outlet_note rfl rfl)
    · split
      · exact (outlet_workerProgress_of_ne hts).trans
          ((outlet_beginDelivery_of_ne hts).trans (outlet_updateQueue _))
      · exact (outlet_setWorker_of_ne _ hts).trans (outlet_updateQueue _)
    · exact (outlet_workerProgress_of_ne hts).trans (outlet_deliveryStep_of_ne hts)
    · split
      · exact (outlet_note rfl rfl).trans (outlet_setWorker_of_ne _ hts)
      · exact (outlet_workerTurn_of_ne hts).trans (outlet_updateQueue _)
    all_goals rfl

end Registry

end Multicast
