import Multicast.Proofs.Registry.Run

/-! The end of a worker. The right to wait for a worker comes with its start and is taken only after
the removal; whoever takes leave of a subscriber therefore comes to the callback only when the
worker is over, or was never started. A worker that is over stays so once its subscriber is removed.
-/

namespace Multicast

/-- The subscriber is removed, and no worker of it is up. -/
structure Session.Retired (x : Session) : Prop where
  removed : x.stage = .removed
  down : x.worker.isUp = false

namespace WorkerPoint

variable {ρ : Type}

theorem isUp_of_isOver {w : WorkerPoint ρ} (h : w.isOver = true) : w.isUp = false := by
  cases w with
  | stopped | crashed => rfl
  | _ => cases h

end WorkerPoint

/-! ### Lanes -/

namespace Lane

variable {T : Terms} {l l' : Lane}

/-- Until the removal nobody has taken the right to wait for the worker. -/
def Joinable (l : Lane) : Prop :=
  l.session.stage ≠ .removed → l.session.queue.unjoined = l.session.queue.started

theorem joinable_fresh (request : Subscription) (room : Nat) : (fresh request room).Joinable :=
  fun _ => rfl

theorem Joinable.turn (h : l.Joinable) (hl : l.Lawful T) (t : Turn T l l') : l'.Joinable := by
  cases t with
  | adjust sink signal unjoined hu =>
    intro hs
    exact (hu.resolve_right fun hremoved => hs hremoved.1).trans (h hs)
  | join | leave | take | begin | goOn | settle | crash | work | reclose => exact h
  | succeed p d hp hw => split <;> exact h
  | enqueue b hb hc =>
    rw [Session.enqueue_of_open b hc]
    exact h
  | remove | fall => exact fun hs => absurd rfl hs
  | @activate x P log =>
    cases hs : x.stage with
    | registered =>
      have hstage : x.stage ≠ .removed := by
        rw [hs]
        exact nofun
      rw [Session.activate_of_registered hs (hl.idle hs) (hl.open_iff.mpr hstage)]
      exact fun _ => rfl
    | active => simpa only [Session.activate, hs] using h
    | removed => simpa only [Session.activate, hs] using h

/-- Nothing starts the worker of a subscriber that is removed, and what is over does not go on. -/
theorem Turn.retired (t : Turn T l l') (h : l.session.Retired) : l'.session.Retired := by
  cases t with
  | adjust | join | leave | take | begin | goOn | settle | crash | enqueue | reclose =>
    exact ⟨h.removed, h.down⟩
  | remove | fall => exact ⟨rfl, h.down⟩
  | succeed p d hp hw => split <;> exact ⟨h.removed, h.down⟩
  | work w hx hw => exact absurd hx (Bool.eq_false_iff.mp h.down)
  | @activate x P log =>
    have hs : x.stage = .removed := h.removed
    simpa only [Session.activate, hs] using h

end Lane

variable {T : Terms} {a b : Posted} {s : SessionId} {x y : Session}

theorem Shifts.retired (h : Shifts T a b) (hs : Sound T a) (hx : a.registry.session? s = some x)
    (hr : x.Retired) : ∃ y, b.registry.session? s = some y ∧ y.Retired :=
  h.lane_keep (I := fun l => l.session.Retired) (fun _ _ _ hl t => t.retired hl) hs hx hr

/-! ### Taking leave -/

/-- What is so of a subscriber when somebody who takes leave of it stands at a point: the callback
runs only when no worker is up, and before the worker was asked to end it may still be waited for.
-/
def Farewell.Fits (x : Session) : Farewell → Prop
  | .fresh => x.queue.unjoined = true ∨ x.worker.isUp = false
  | .joining => True
  | .saying _ => x.worker.isUp = false

/-- What is so of a subscriber when taking leave of it has gone on. -/
def Progress.Fits {α : Type} (x : Session) : Progress Farewell α → Prop
  | .running f => f ≠ .fresh ∧ f.Fits x
  | .done _ | .crashed => x.worker.isUp = false

/-- Once somebody has asked the worker to end, the subscriber fits the point whatever happens. -/
theorem Shifts.fits (h : Shifts T a b) (hs : Sound T a) (hx : a.registry.session? s = some x)
    (hr : x.stage = .removed) {f : Farewell} (hn : f ≠ .fresh) (hf : f.Fits x) :
    ∃ y, b.registry.session? s = some y ∧ y.stage = .removed ∧ f.Fits y := by
  cases f with
  | fresh => exact absurd rfl hn
  | joining =>
    obtain ⟨y, hy, hleads⟩ := h.known hx
    exact ⟨y, hy, hleads.removed hr, trivial⟩
  | saying hook =>
    obtain ⟨y, hy, hretired⟩ := h.retired hs hx ⟨hr, hf⟩
    exact ⟨y, hy, hretired.removed, hretired.down⟩

namespace Registry

variable {r : Registry} {i : Nat} {config : Config} {hooks : Hooks} {actions : List Action}

theorem joinable_run (hx : ((new config hooks).run actions).session? s = some x)
    (hs : x.stage ≠ .removed) : x.queue.unjoined = x.queue.started := by
  have hjoinable := run_lane_induction (T := .any config hooks True) (I := Lane.Joinable) rfl rfl
    (fun action _ => action.keeps_any) Lane.joinable_fresh (fun _ _ hl h t => h.turn hl t) hx
  exact hjoinable hs

/-- Who takes leave of a subscriber right after its removal may wait for the worker, if there is
one. -/
theorem fits_remove {P : Party → Post} {log : List WriteMark} (hl : Lane.Lawful T ⟨x, P, log⟩)
    (hj : x.queue.unjoined = x.queue.started) : Farewell.Fits x.remove .fresh := by
  cases hu : x.queue.unjoined with
  | true => exact .inl hu
  | false =>
    have hstarted : ¬ x.queue.started = true := by
      rw [← hj, hu]
      exact Bool.false_ne_true
    have habsent : x.worker = .absent := by
      by_contra hworker
      exact hstarted (hl.worker.mpr hworker)
    refine .inr ?_
    show x.worker.isUp = false
    rw [habsent]
    rfl

/-- Taking leave goes on beside the worker, and comes to the callback when no worker is up. -/
theorem fits_farewellStep (hx : r.session? s = some x) {f : Farewell}
    (hready : r.farewellReady s f = true) (hf : f.Fits x) :
    ∃ y, (r.farewellStep s f).1.session? s = some y ∧ y.stage = x.stage ∧ y.worker = x.worker ∧
      (r.farewellStep s f).2.Fits y := by
  cases f with
  | fresh =>
    have hjoin (v : Registry) (hv : v = r.updateQueue s fun _ => x.queue.close.join.1) :
        v.session? s = some { x with queue := x.queue.close.join.1 } := by
      rw [hv]
      exact session?_update hx _
    unfold farewellStep
    rw [hx]
    dsimp only
    generalize hv : (r.updateQueue s fun _ => x.queue.close.join.1) = v
    have hnow := hjoin v hv.symm
    cases hu : x.queue.unjoined with
    | true =>
      have hwaits : x.queue.close.join.2 = true := hu
      rw [if_pos hwaits]
      exact ⟨_, hnow, rfl, rfl, nofun, trivial⟩
    | false =>
      have hwaits : ¬ x.queue.close.join.2 = true := Bool.eq_false_iff.mp hu
      -- nobody is waited for, since no worker is up
      have hdown : x.worker.isUp = false := hf.resolve_left (by simp [hu])
      rw [if_neg hwaits]
      exact ⟨_, session?_callAfter.trans hnow, rfl, rfl, nofun, hdown⟩
  | joining =>
    have hover : x.worker.isOver = true := by simpa [farewellReady, hx] using hready
    have hdown := WorkerPoint.isUp_of_isOver hover
    unfold farewellStep
    dsimp only
    refine ⟨x, ?_, rfl, rfl, nofun, hdown⟩
    refine session?_callAfter.trans ?_
    split
    · exact hx
    · exact hx
  | saying hook =>
    unfold farewellStep
    dsimp only
    cases hook.step r.now with
    | running hook' => exact ⟨x, hx, rfl, rfl, nofun, hf⟩
    | crashed => exact ⟨x, hx, rfl, rfl, hf⟩
    | done result => exact ⟨x, hx, rfl, rfl, hf⟩

end Registry

end Multicast
