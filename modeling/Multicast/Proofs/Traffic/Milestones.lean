import Multicast.Proofs.Traffic.Growth

/-! Where a delivery stands, as the history tells it. A delivery begins when it skips its batch as
stale or hands a frame to the sink, and it ends once; whatever else is told in its course is no
milestone. -/

namespace Multicast

/-- What the history tells of the course of a delivery to a subscriber. -/
inductive Milestone
  | begins (s : SessionId)
  | ends (s : SessionId)
  deriving DecidableEq, Repr

namespace Event

def milestone? : Event → Option Milestone
  | .staleSkipped who _ _ _ | .writeBegun who _ _ _ => some (.begins who.id)
  | .deliveryFinished who _ => some (.ends who.id)
  | _ => none

/-- Whether an event, if it tells that a delivery begins, tells so of the batch `b` on its way past
the queue of a subscriber. -/
def Hands (r : Registry) (b : Batch Nat) : Event → Prop
  | .staleSkipped _ kind batch _ => kind = .historical ∧ batch = b
  | .writeBegun who kind keepAlive frame => kind = .historical ∧ keepAlive = b.isPing ∧
      ∃ x, r.session? who.id = some x ∧ frame = r.hooks.process x b
  | _ => True

/-- An event that tells of no beginning may be told by any delivery. -/
theorem hands_of_milestone? {e : Event} (h : ∀ s, e.milestone? ≠ some (.begins s)) (r : Registry)
    (b : Batch Nat) : e.Hands r b := by
  cases e with
  | staleSkipped who | writeBegun who => exact absurd rfl (h who.id)
  | _ => trivial

end Event

/-- The milestones of a delivery that has gone on: there is one if it has ended. -/
def Progress.milestones (s : SessionId) : Progress Delivery DeliveryOutcome → List Milestone
  | .done _ => [.ends s]
  | .running _ | .crashed => []

namespace Registry

/-- The milestones of all deliveries, the latest first. -/
def milestones (r : Registry) : List Milestone := r.history.filterMap Event.milestone?

/-- What leads from `r` to `v` tells the milestones `ms`, the earliest first, and the deliveries
that begin are of the batch `b`. -/
def Tells (r : Registry) (b : Batch Nat) (ms : List Milestone) (v : Registry) : Prop :=
  ∃ es, v.history = es ++ r.history ∧ es.reverse.filterMap Event.milestone? = ms ∧
    ∀ e ∈ es, e.Hands r b

variable {r u v : Registry} {s : SessionId} {x : Session} {p : Party} {b : Batch Nat}
  {kind : DeliveryKind} {d : Delivery} {e : Event} {ms : List Milestone}

theorem Tells.nothing (h : v.history = r.history) : Tells r b [] v := ⟨[], h, rfl, nofun⟩

theorem Tells.congr (h : Tells r b ms u) (hv : v.history = u.history) : Tells r b ms v := by
  obtain ⟨es, hes, hms, hhands⟩ := h
  exact ⟨es, hv.trans hes, hms, hhands⟩

theorem milestones_note (he : e.milestone? = none) : (r.note e).milestones = r.milestones :=
  List.filterMap_cons_none he

theorem milestones_finishDelivery (o : DeliveryOutcome) :
    (r.finishDelivery s o).1.milestones = .ends s :: r.milestones :=
  List.filterMap_cons_some rfl

/-! ### The course of a delivery -/

theorem milestones_detach (reason : RemovalReason) :
    (r.detach s reason).1.milestones = r.milestones := by
  rcases r.present_or_gone s with ⟨x, hx, hstage⟩ | hgone
  · unfold detach
    rw [markRemoved_eq hx hstage]
    rfl
  · rw [detach_of_removed hgone]

theorem milestones_callAfter : (r.callAfter s).1.milestones = r.milestones := by
  unfold callAfter
  split
  · rfl
  · exact milestones_note rfl

theorem milestones_noteReturn (result : Except HookError Unit) :
    (r.noteReturn s .hookFailed result).milestones = r.milestones := by
  cases result with
  | ok _ => exact milestones_note rfl
  | error e => exact (milestones_note rfl).trans (milestones_note rfl)

theorem milestones_writeSucceeded :
    (r.writeSucceeded s d).1.milestones = .ends s :: r.milestones := by
  unfold writeSucceeded
  rw [milestones_finishDelivery, milestones_note rfl]
  cases d.keepAlive with
  | true => rfl
  | false => rfl

theorem milestones_writeFailed (e : SinkError) :
    (r.writeFailed s d e).1.milestones =
      (r.writeFailed s d e).2.milestones s ++ r.milestones := by
  have hnoted : ((r.note (.writeFailed (r.nameOf s) d.kind e)).count
      (·.sinkFailure d.kind)).milestones = r.milestones := milestones_note rfl
  unfold writeFailed
  dsimp only
  have hdetached := milestones_detach (s := s) .sinkFailure
    (r := (r.note (.writeFailed (r.nameOf s) d.kind e)).count (·.sinkFailure d.kind))
  rcases hdetach : Registry.detach _ s .sinkFailure with ⟨w, found⟩
  rw [hdetach] at hdetached
  cases found with
  | true => exact milestones_callAfter.trans (hdetached.trans hnoted)
  | false =>
    rw [milestones_finishDelivery]
    exact congrArg (Milestone.ends s :: ·) (hdetached.trans hnoted)

/-- A delivery that goes on tells a milestone just if it ends. -/
theorem milestones_deliveryStep : (r.deliveryStep s p d).1.milestones =
    (r.deliveryStep s p d).2.milestones s ++ r.milestones := by
  unfold deliveryStep
  cases d.point with
  | writing point =>
    dsimp only
    cases r.session? s with
    | none => rfl
    | some x =>
      dsimp only
      rcases x.sink.step r.now p d.frame point with ⟨sink, progress⟩
      cases progress with
      | running point' => rfl
      | crashed => exact milestones_note rfl
      | done result =>
        cases result with
        | ok _ => exact milestones_writeSucceeded
        | error e => exact milestones_writeFailed e
  | removing hook =>
    dsimp only
    cases hook.step r.now with
    | running hook' => rfl
    | crashed => rfl
    | done result =>
      show (finishDelivery _ s .failed).1.milestones = [.ends s] ++ r.milestones
      rw [milestones_finishDelivery, milestones_noteReturn]
      rfl

/-- What is told while the history grows concerns no batch in particular if nothing begins. -/
theorem tells_of_milestones (h : r.history <:+ v.history)
    (hm : v.milestones = ms ++ r.milestones) (hms : ∀ s, .begins s ∉ ms) :
    Tells r b ms.reverse v := by
  obtain ⟨es, hes⟩ := h
  have hnew : es.filterMap Event.milestone? = ms := by
    rw [milestones, ← hes, List.filterMap_append] at hm
    exact List.append_cancel_right hm
  refine ⟨es, hes.symm, ?_, ?_⟩
  · rw [List.filterMap_reverse, hnew]
  · intro e he
    apply Event.hands_of_milestone?
    intro s hs
    exact hms s (hnew ▸ List.mem_filterMap.mpr ⟨e, he, hs⟩)

/-! ### Direct deliveries of data -/

theorem Carries.grows {G G' : Multiset Hand} (h : Carries r G v G') : r.Grows v :=
  (Transits.transfers (h 0)).grows

/-- What a backfill's delivery to one subscriber can come to when it goes on. -/
inductive Strides (r : Registry) (d : Direct) : Registry × Progress Direct Bool → Prop
  /-- The queue has closed while the delivery stood in line. -/
  | shutOut {v : Registry} {x : Session} (hline : d.delivery = none)
      (hx : r.session? d.session = some x) (hc : x.queue.closed = true)
      (ht : r.Tells d.batch [] v) : Strides r d (v, .done false)
  | skips {v : Registry} (hline : d.delivery = none)
      (ht : r.Tells d.batch [.begins d.session, .ends d.session] v) : Strides r d (v, .done true)
  | begins {v : Registry} {run : Delivery} (hline : d.delivery = none)
      (ht : r.Tells d.batch [.begins d.session] v) :
      Strides r d (v, .running { d with delivery := some run })
  | goesOn {v : Registry} {run run' : Delivery} (hrun : d.delivery = some run)
      (ht : r.Tells d.batch [] v) : Strides r d (v, .running { d with delivery := some run' })
  | ends {v : Registry} {run : Delivery} (hrun : d.delivery = some run)
      (ht : r.Tells d.batch [.ends d.session] v) : Strides r d (v, .done true)
  | crashes {v : Registry} : Strides r d (v, .crashed)

/-- A delivery under way goes on or ends. -/
theorem strides_deliveryStep {e : Direct} (he : e.delivery = some d) :
    Strides r e (directProgress p e (r.deliveryStep e.session p d)) := by
  have hcarries : Carries r {.busy .historical e.session d} (r.deliveryStep e.session p d).1
      ((r.deliveryStep e.session p d).2.heldBy .historical e.session) := carries_deliveryStep
  have hgrows := hcarries.grows
  have hmilestones := milestones_deliveryStep (r := r) (s := e.session) (p := p) (d := d)
  rcases hstep : r.deliveryStep e.session p d with ⟨w, progress⟩
  rw [hstep] at hgrows hmilestones
  cases progress with
  | running run' => exact .goesOn he (tells_of_milestones hgrows.history hmilestones nofun)
  | done o =>
    have htells := tells_of_milestones (b := e.batch) hgrows.history hmilestones (by
      simp [Progress.milestones])
    exact .ends he (htells.congr rfl)
  | crashed => exact .crashes

/-- A delivery that has the gate of an open queue skips its batch or begins to write. -/
theorem strides_beginDelivery {e : Direct} (he : e.delivery = none) (hk : e.kind = .historical)
    (hx : r.session? e.session = some x) :
    Strides r e (directProgress p e (r.beginDelivery e.session p e.batch e.kind)) := by
  have hdata : (decide (e.kind = .ping) || e.batch.isPing) = e.batch.isPing := by
    rw [hk]
    rfl
  by_cases hfresh : e.batch.isPing = true ∨ r.isStale x e.batch = false
  · rw [beginDelivery_of_fresh hx hdata hfresh, hk]
    refine .begins he ⟨[_], rfl, rfl, ?_⟩
    rintro event hevent
    obtain rfl := List.mem_singleton.mp hevent
    exact ⟨rfl, rfl, x, hx, rfl⟩
  · obtain ⟨hping, hstale⟩ := not_or.mp hfresh
    rw [beginDelivery_of_stale hx (hdata.trans (Bool.eq_false_iff.mpr hping))
      (eq_true_of_ne_false hstale), hk]
    refine .skips he ⟨[_, _], rfl, rfl, ?_⟩
    rintro event hevent
    rcases List.mem_pair.mp hevent with rfl | rfl
    · trivial
    · exact ⟨rfl, rfl⟩

/-- What a backfill's delivery comes to when it goes on. -/
theorem strides_directStep {e : Direct} (hk : e.kind = .historical)
    (hx : r.session? e.session = some x) : Strides r e (r.directStep p e) := by
  unfold directStep
  cases he : e.delivery with
  | some run => exact strides_deliveryStep he
  | none =>
    rw [hx]
    dsimp only
    split
    · rename_i hclosed
      exact .shutOut he hx hclosed (.nothing rfl)
    · exact strides_beginDelivery he hk hx

end Registry

end Multicast
