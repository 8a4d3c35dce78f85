import Multicast.Proofs.Isolation.Directory
import Multicast.Proofs.Registry.Turn

/-! Work within one subscriber. What is done for a subscriber changes that subscriber, what is told
of it, the set of those who are registered and the counters; all others stay as they are. -/

namespace Multicast

namespace Registry

/-- What surrounds the subscribers is the same in `v` as in `r`. -/
structure Steady (r v : Registry) : Prop where
  config : v.config = r.config
  hooks : v.hooks = r.hooks
  now : v.now = r.now
  tokens : v.cancelledTokens = r.cancelledTokens
  stopped : v.stopped = r.stopped

/-- What leads from `r` to `v` is work within the subscriber `t`. -/
structure Within (t : SessionId) (r v : Registry) : Prop extends Steady r v where
  session? : ∀ s, s ≠ t → v.session? s = r.session? s
  begun : ∀ s, s ≠ t → v.begun s = r.begun s
  calls : v.calls = r.calls

variable {r u v : Registry} {s t : SessionId} {p : Party} {b : Batch Nat} {d : Delivery}
  {kind : DeliveryKind}

namespace Steady

theorem refl (r : Registry) : Steady r r := ⟨rfl, rfl, rfl, rfl, rfl⟩

theorem trans (h : Steady r u) (h' : Steady u v) : Steady r v where
  config := h'.config.trans h.config
  hooks := h'.hooks.trans h.hooks
  now := h'.now.trans h.now
  tokens := h'.tokens.trans h.tokens
  stopped := h'.stopped.trans h.stopped

end Steady

namespace Within

theorem refl (r : Registry) : Within t r r := ⟨.refl r, fun _ _ => rfl, fun _ _ => rfl, rfl⟩

theorem trans (h : Within t r u) (h' : Within t u v) : Within t r v where
  toSteady := h.toSteady.trans h'.toSteady
  session? s hs := (h'.session? s hs).trans (h.session? s hs)
  begun s hs := (h'.begun s hs).trans (h.begun s hs)
  calls := h'.calls.trans h.calls

/-- What is noted tells of no write to another subscriber. -/
theorem note (h : Within t r u) {e : Event} (he : ∀ s, s ≠ t → e.begunTo? s = none) :
    Within t r (u.note e) :=
  { h with begun := fun s hs => (List.filterMap_cons_none (he s hs)).trans (h.begun s hs) }

theorem count (h : Within t r u) (f : Metrics → Metrics) : Within t r (u.count f) :=
  { h with }

theorem update (h : Within t r u) (f : Session → Session) : Within t r (u.update t f) :=
  { h with
    session? := fun s hs =>
      (List.getElem?_modify_ne f u.sessions hs.symm).trans (h.session? s hs) }

end Within

/-! ### Removal -/

/-- What tells of no write at all tells of none that begins. -/
theorem begunTo?_of_mark? {e : Event} (h : e.mark? s = none) : e.begunTo? s = none := by
  cases e with
  | writeBegun who kind keepAlive frame =>
    have hs : who.id ≠ s := by simpa [Event.mark?] using h
    exact if_neg hs
  | _ => rfl

theorem begun_put (r : Registry) (t : SessionId) (y : Session) {es : List Event}
    (he : ∀ e ∈ es, ∀ s, e.mark? s = none) (s : SessionId) :
    (r.put t y es).begun s = r.begun s := by
  have hnone : es.filterMap (Event.begunTo? s) = [] :=
    List.filterMap_eq_nil_iff.mpr fun e hmem => begunTo?_of_mark? (he e hmem s)
  rw [begun, begun, put, List.filterMap_append, hnone, List.nil_append]

theorem within_detach (reason : RemovalReason) : Within t r (r.detach t reason).1 := by
  by_cases hr : ∀ x, r.session? t = some x → x.stage = .removed
  · rw [detach_of_removed hr]
    exact .refl r
  · obtain ⟨x, hx⟩ := not_forall.mp hr
    obtain ⟨hget, hstage⟩ := Classical.not_imp.mp hx
    obtain ⟨es, he, hdetach⟩ := detach_eq hget hstage reason
    have hput : Within t r (r.put t x.remove es) := by
      refine { Within.refl (t := t) r with session? := ?_, begun := ?_ }
      · exact fun s hs => session?_put_of_ne r hs x.remove es
      · exact fun s _ => begun_put r t x.remove he s
    rw [hdetach]
    -- the set and the counters are not looked at
    exact { hput with }

theorem within_callAfter : Within t r (r.callAfter t).1 := by
  unfold callAfter
  split
  · exact .refl r
  · exact (Within.refl r).note fun _ _ => rfl

theorem within_noteReturn {failure : SessionName → HookError → Event}
    (hf : ∀ who e s, (failure who e).begunTo? s = none) (result : Except HookError Unit) :
    Within t r (r.noteReturn t failure result) := by
  cases result with
  | ok _ => exact (Within.refl r).note fun _ _ => rfl
  | error e => exact ((Within.refl r).note fun _ _ => rfl).note fun s _ => hf _ e s

/-! ### Deliveries -/

theorem within_updateQueue (f : Queue Nat → Queue Nat) : Within t r (r.updateQueue t f) :=
  (Within.refl r).update _

theorem within_leave : Within t r (r.leave t p) := within_updateQueue _

theorem within_setWorker (w : WorkerPoint Delivery) : Within t r (r.setWorker t w) :=
  (Within.refl r).update _

theorem within_beginDelivery : Within t r (r.beginDelivery t p b kind).1 := by
  unfold beginDelivery finishDelivery
  split
  · exact .refl r
  · dsimp only
    split
    · exact (((Within.refl r).note fun _ _ => rfl).count _).note fun _ _ => rfl
    · -- only here a write begins, and it is one to `t`
      exact ((Within.refl r).update _).note fun s hs => if_neg hs.symm

theorem within_writeSucceeded : Within t r (r.writeSucceeded t d).1 := by
  have hwritten : Within t r (r.update t Session.recordWrite) := (Within.refl r).update _
  unfold writeSucceeded
  dsimp only
  split
  · exact ((hwritten.count _).note fun _ _ => rfl).note fun _ _ => rfl
  · exact (((hwritten.update _).count _).note fun _ _ => rfl).note fun _ _ => rfl

theorem within_writeFailed (e : SinkError) : Within t r (r.writeFailed t d e).1 := by
  have hnoted : Within t r ((r.note (.writeFailed (r.nameOf t) d.kind e)).count
    (·.sinkFailure d.kind)) := ((Within.refl r).note fun _ _ => rfl).count _
  have hdetached := hnoted.trans (within_detach .sinkFailure)
  unfold writeFailed
  dsimp only
  split
  · rename_i w hw
    rw [hw] at hdetached
    exact hdetached.trans within_callAfter
  · rename_i w hw
    rw [hw] at hdetached
    exact hdetached.note fun _ _ => rfl

theorem within_deliveryStep : Within t r (r.deliveryStep t p d).1 := by
  unfold deliveryStep
  split
  · split
    · exact .refl r
    · rename_i x hx
      rcases x.sink.step r.now p d.frame _ with ⟨sink, progress⟩
      have hsink : Within t r (r.update t fun x => { x with sink := sink }) :=
        (Within.refl r).update _
      dsimp only
      split
      · exact hsink
      · exact hsink.note fun _ _ => rfl
      · split
        · exact (hsink.count _).trans within_writeSucceeded
        · exact (hsink.count _).trans (within_writeFailed _)
  · split
    · exact .refl r
    · exact .refl r
    · exact (within_noteReturn (fun _ _ _ => rfl) _).note fun _ _ => rfl

theorem within_askGate : Within t r (r.askGate t p).1 := by
  unfold askGate
  split
  · exact .refl r
  · split
    · exact within_updateQueue fun _ => _
    · exact .refl r

theorem within_directProgress {e : Direct} {o : Registry × Progress Delivery DeliveryOutcome}
    (h : Within e.session r o.1) : Within e.session r (directProgress p e o).1 := by
  obtain ⟨w, progress⟩ := o
  cases progress with
  | running run => exact h
  | done _ => exact h.trans within_leave
  | crashed => exact h.trans within_leave

theorem within_directStep (e : Direct) : Within e.session r (r.directStep p e).1 := by
  unfold directStep
  split
  · exact within_directProgress within_deliveryStep
  · split
    · exact .refl r
    · split
      · exact within_leave
      · exact within_directProgress within_beginDelivery

/-! ### The worker -/

theorem within_workerTurn : Within t r (r.workerTurn t) := by
  unfold workerTurn
  split
  · exact .refl r
  · split
    · exact (within_updateQueue _).trans (within_setWorker _)
    · exact (within_setWorker _).note fun _ _ => rfl

theorem within_workerProgress {o : Registry × Progress Delivery DeliveryOutcome}
    (h : Within t r o.1) : Within t r (workerProgress t o) := by
  obtain ⟨w, progress⟩ := o
  cases progress with
  | running run => exact h.trans (within_setWorker _)
  | done _ => exact (h.trans within_leave).trans within_workerTurn
  | crashed => exact (h.trans within_leave).trans (within_setWorker _)

theorem within_workerStep : Within t r (r.workerStep t) := by
  unfold workerStep
  split
  · exact .refl r
  · split
    · exact ((Within.refl r).note fun _ _ => rfl).trans within_workerTurn
    · split
      · exact within_workerProgress ((within_updateQueue _).trans within_beginDelivery)
      · exact (within_updateQueue _).trans (within_setWorker _)
    · exact within_workerProgress within_deliveryStep
    · split
      · exact (within_setWorker _).note fun _ _ => rfl
      · exact (within_updateQueue _).trans within_workerTurn
    all_goals exact .refl r

/-! ### Calls and the receiver -/

theorem within_activate : Within t r (r.activate t).1 := by
  unfold activate
  split
  · exact .refl r
  · split
    · exact ((Within.refl r).update _).note fun _ _ => rfl
    · exact (Within.refl r).update _

theorem within_offer : Within t r (r.offer b t).1 := by
  unfold offer
  split
  · exact .refl r
  · split
    · exact .refl r
    · split
      · exact ((Within.refl r).update _).note fun _ _ => rfl
      · exact .refl r

theorem within_farewellStep (f : Farewell) : Within t r (r.farewellStep t f).1 := by
  unfold farewellStep
  split
  · split
    · exact .refl r
    · dsimp only
      split
      · exact within_updateQueue fun _ => _
      · exact (within_updateQueue fun _ => _).trans within_callAfter
  · dsimp only
    split
    · exact ((Within.refl r).note fun _ _ => rfl).trans within_callAfter
    · exact within_callAfter
  · split
    · exact .refl r
    · exact .refl r
    · exact .refl r

theorem within_receive : Within t r (((r.receive? t).map (·.2)).getD r) := by
  unfold receive?
  split
  · rename_i c _
    cases c.receive? with
    | none => exact .refl r
    | some received => exact (Within.refl r).update _
  · exact .refl r

theorem within_dropReceiver : Within t r (r.dropReceiver t) := (Within.refl r).update _

end Registry

end Multicast
