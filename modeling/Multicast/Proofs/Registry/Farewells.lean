import Multicast.Proofs.Isolation.Within
import Multicast.Proofs.Registry.AtRest

/-! The farewells of a stop. Each member is taken leave of by one call, and no other call attends to
it; so nobody else takes the right to wait for its worker, and when the call is over the worker is
over too, or was never started. -/

namespace Multicast

/-! ### Other terms -/

section
variable {T U : Terms} {r : Registry} {l : Lane}

theorem Lane.Lawful.congr (h : l.Lawful T) (ha : ∀ b, T.admits b → U.admits b) : l.Lawful U :=
  { h with stocked := fun b hb => ha b (h.stocked b hb) }

theorem DirectsPlaced.congr {ds : List Direct} (h : DirectsPlaced T r ds)
    (ha : ∀ b, T.admits b → U.admits b) : DirectsPlaced U r ds where
  known := h.known
  nodup := h.nodup
  fit d hd := ⟨fun hk => ha d.batch ((h.fit d hd).admits hk), (h.fit d hd).keepAlive⟩

theorem Call.Placed.congr {c : Call} (h : c.Placed T r) (ha : ∀ b, T.admits b → U.admits b) :
    c.Placed U r := by
  refine ⟨h.directs.congr ha, ?_⟩
  have hfit := h.fit
  cases c with
  | backfilling b => exact ha b.batch hfit
  | _ => exact hfit

/-- A registry is settled under all terms with the same rules that admit as much. -/
theorem Settled.congr (h : Settled T r) (hp : U.policy = T.policy) (hh : U.process = T.process)
    (ha : ∀ b, T.admits b → U.admits b) : Settled U r := by
  refine ⟨?_, fun c hc => (h.placed c hc).congr ha, h.subscribed⟩
  exact {
    policy := h.sound.policy.trans hp.symm
    process := h.sound.process.trans hh.symm
    lawful := fun s x hx => (h.sound.lawful s x hx).congr ha
    strangers := h.sound.strangers
    nodup := h.sound.nodup
    mem_iff := h.sound.mem_iff }

end

/-- The runs in which nobody takes the right to wait for a worker. -/
def Terms.unjoined (config : Config) (hooks : Hooks) : Terms :=
  { Terms.any config hooks True with mayJoin := False }

/-- The right to wait for the worker of a subscriber that is removed stays, if nobody takes it. -/
theorem Lane.Turn.unjoined_eq {T : Terms} {l l' : Lane} (t : Lane.Turn T l l') (hj : ¬ T.mayJoin)
    (hs : l.session.stage = .removed) :
    l'.session.queue.unjoined = l.session.queue.unjoined := by
  cases t with
  | adjust sink signal unjoined hu => exact hu.resolve_right fun hjoins => hj hjoins.2
  | join | leave | take | begin | goOn | settle | crash | work | reclose | remove | fall => rfl
  | succeed p d hp hw => split <;> rfl
  | enqueue b hb hc => rw [Session.enqueue_of_open b hc]
  | @activate x P log =>
    have hx : x.stage = .removed := hs
    simp only [Session.activate, hx]

namespace Registry

variable {T : Terms} {r : Registry} {s t : SessionId} {x y : Session} {i : Nat} {c : Call}
  {config : Config} {hooks : Hooks} {action : Action}

/-! ### Whoever takes leave of others -/

theorem session?_unsubscribeProgress
    {o : Registry × Progress Farewell (Except HookError Unit)} :
    (unsubscribeProgress i t o).session? s = o.1.session? s := by
  obtain ⟨w, progress⟩ := o
  cases progress with
  | running | crashed => rfl
  | done result => cases result <;> rfl

theorem session?_farewellProgress {o : Registry × Progress Farewell (Except HookError Unit)} :
    (farewellProgress i t o).session? s = o.1.session? s := by
  obtain ⟨w, progress⟩ := o
  cases progress with
  | running | crashed => rfl
  | done result => exact session?_noteReturn

/-- To unsubscribe somebody leaves a subscriber alone that is removed. -/
theorem session?_unsubscribe (hgone : r.isGone s = true) :
    (r.unsubscribe t).session? s = r.session? s := by
  unfold unsubscribe startCall
  dsimp only
  by_cases hst : s = t
  · subst hst
    obtain ⟨x, hx, hstage⟩ := isGone_iff.mp hgone
    have hremoved : ∀ y, (r.addCall .crashed).session? s = some y → y.stage = .removed := by
      intro y hy
      obtain rfl := Option.some.inj (hx.symm.trans hy)
      exact hstage
    rw [detach_of_removed hremoved]
    rfl
  · have hdetach := (within_detach (r := r.addCall .crashed) (t := t) .unsubscribed).session? s hst
    rcases hd : (r.addCall .crashed).detach t .unsubscribed with ⟨w, found⟩
    rw [hd] at hdetach
    cases found with
    | true =>
      have hfarewell := (within_farewellStep (r := w) (t := t) .fresh).session? s hst
      exact session?_unsubscribeProgress.trans (hfarewell.trans hdetach)
    | false => exact hdetach

/-- Whoever takes the right to wait for a worker leaves those subscribers alone that are removed and
to which it does not attend. -/
theorem session?_of_joins (hgone : r.isGone s = true) (hj : r.Joins action)
    (ha : ∀ i, action = .run (.call i) → ¬ r.AttendsTo i s) :
    (r.apply action).session? s = r.session? s := by
  cases action with
  | unsubscribe t => exact session?_unsubscribe hgone
  | run task =>
    cases task with
    | worker t => exact hj.elim
    | call i =>
      obtain ⟨c, hc, hjoins⟩ := hj
      cases hready : r.callReady i c with
      | false => rw [apply_call_of_waiting hc hready]
      | true =>
        rw [apply_call hc hready]
        cases c with
        | unsubscribing t f =>
          have hst : s ≠ t := fun h => ha i rfl ⟨_, hc, congrArg some h.symm⟩
          exact session?_unsubscribeProgress.trans ((within_farewellStep f).session? s hst)
        | farewell t f =>
          have hst : s ≠ t := fun h => ha i rfl ⟨_, hc, congrArg some h.symm⟩
          exact session?_farewellProgress.trans ((within_farewellStep f).session? s hst)
        | _ => exact hjoins.elim
  | _ => exact hj.elim

/-- A subscriber fits the point at which a call takes leave of it, whatever happens, as long as no
call goes on that attends to the subscriber. -/
theorem fits_apply (hr : Settled (.any config hooks True) r) (hx : r.session? s = some x)
    (hs : x.stage = .removed) {f : Farewell} (hf : f.Fits x)
    (ha : ∀ i, action = .run (.call i) → ¬ r.AttendsTo i s) :
    ∃ y, (r.apply action).session? s = some y ∧ y.stage = .removed ∧ f.Fits y := by
  have hreaches := reaches_apply hr action.keeps_any
  -- before the wait the point fits because of a right to wait, which others must not take
  by_cases hfresh : f = .fresh
  · subst hfresh
    rcases hf with hu | hdown
    · by_cases hj : r.Joins action
      · have hgone : r.isGone s = true := isGone_iff.mpr ⟨x, hx, hs⟩
        exact ⟨x, (session?_of_joins hgone hj ha).trans hx, hs, .inl hu⟩
      · -- nobody takes the right to wait
        have hsettled : Settled (.unjoined config hooks) r := hr.congr rfl rfl fun _ => id
        have hquiet : Reaches (.unjoined config hooks) r (r.apply action) :=
          reaches_apply_of hsettled (fun _ _ => trivial) (fun _ => trivial) fun h => absurd h hj
        obtain ⟨y, hy, hstage, hunjoined⟩ := hquiet.shifts.lane_keep
          (I := fun l => l.session.stage = .removed ∧ l.session.queue.unjoined = true)
          (fun l l' _ hl t => ⟨t.stage_leads.removed hl.1,
            (t.unjoined_eq not_false hl.1).trans hl.2⟩) hsettled.sound hx ⟨hs, hu⟩
        exact ⟨y, hy, hstage, .inl hunjoined⟩
    · obtain ⟨y, hy, hretired⟩ := hreaches.shifts.retired hr.sound hx ⟨hs, hdown⟩
      exact ⟨y, hy, hretired.removed, .inr hretired.down⟩
  · exact hreaches.shifts.fits hr.sound hx hs hfresh hf

end Registry

/-! ### The call that takes leave -/

/-- Whether a call stands where one may that was made to take leave of a subscriber: as long as it
does, the subscriber fits the point; when it is over, no worker is up. -/
def Call.TakesLeave (r : Registry) (s : SessionId) : Call → Prop
  | .farewell t f => t = s ∧ ∃ x, r.session? s = some x ∧ x.stage = .removed ∧ f.Fits x
  | .returned _ | .crashed => ∃ x, r.session? s = some x ∧ x.Retired
  | _ => False

namespace Registry

variable {r : Registry} {s : SessionId} {y : Session} {i : Nat} {c : Call} {config : Config}
  {hooks : Hooks}

theorem takesLeave_farewellProgress {o : Registry × Progress Farewell (Except HookError Unit)}
    (hi : i < o.1.calls.length) (hy : o.1.session? s = some y) (hs : y.stage = .removed)
    (hf : o.2.Fits y) : ∃ c, (farewellProgress i s o).calls[i]? = some c ∧
      c.TakesLeave (farewellProgress i s o) s := by
  have hnow := (session?_farewellProgress (i := i) (t := s) (o := o)).trans hy
  obtain ⟨w, progress⟩ := o
  cases progress with
  | running f => exact ⟨_, List.getElem?_set_self hi, rfl, y, hnow, hs, hf.2⟩
  | crashed => exact ⟨_, List.getElem?_set_self hi, y, hnow, hs, hf⟩
  | done result =>
    have hcalls : (w.noteReturn s .farewellFailed result).calls = w.calls := by
      cases result <;> rfl
    refine ⟨_, List.getElem?_set_self ?_, y, hnow, hs, hf⟩
    rw [hcalls]
    exact hi

theorem takesLeave_apply (hr : Settled (.any config hooks True) r) (hc : r.calls[i]? = some c)
    (h : c.TakesLeave r s) (hown : ∀ j, r.AttendsTo j s → j = i) (action : Action) :
    ∃ c', (r.apply action).calls[i]? = some c' ∧ c'.TakesLeave (r.apply action) s := by
  have hreaches := reaches_apply hr action.keeps_any
  cases c with
  | farewell t f =>
    obtain ⟨rfl, x, hx, hstage, hfits⟩ := h
    by_cases ha : action = .run (.call i)
    · subst ha
      cases hready : r.callReady i (.farewell t f) with
      | false =>
        rw [apply_call_of_waiting hc hready]
        exact ⟨_, hc, rfl, x, hx, hstage, hfits⟩
      | true =>
        obtain ⟨y, hy, hys, -, hyf⟩ := fits_farewellStep hx hready hfits
        rw [apply_call hc hready]
        refine takesLeave_farewellProgress ?_ hy (hys.trans hstage) hyf
        rw [(within_farewellStep f).calls]
        exact (List.getElem?_eq_some_iff.mp hc).1
    · -- the call stays where it is, and it is the only one that attends to the subscriber
      refine ⟨_, call_stays hr hc id ha, rfl, fits_apply hr hx hstage hfits ?_⟩
      rintro j rfl hattends
      obtain rfl := hown j hattends
      exact ha rfl
  | returned _ =>
    obtain ⟨x, hx, hretired⟩ := h
    exact ⟨_, over_apply hr hc rfl action, hreaches.shifts.retired hr.sound hx hretired⟩
  | crashed =>
    obtain ⟨x, hx, hretired⟩ := h
    exact ⟨_, over_apply hr hc rfl action, hreaches.shifts.retired hr.sound hx hretired⟩
  | _ => exact h.elim

theorem takesLeave_run (hr : Settled (.any config hooks True) r) (hc : r.calls[i]? = some c)
    (h : c.TakesLeave r s) (hgone : r.isGone s = true) (hown : ∀ j, r.AttendsTo j s → j = i)
    (actions : List Action) :
    ∃ c', (r.run actions).calls[i]? = some c' ∧ c'.TakesLeave (r.run actions) s := by
  induction actions generalizing r c with
  | nil => exact ⟨c, hc, h⟩
  | cons action rest ih =>
    have hnext := (reaches_apply hr action.keeps_any).settled
    obtain ⟨c', hc', h'⟩ := takesLeave_apply hr hc h hown action
    refine ih hnext hc' h' (isGone_apply hr hgone) fun j hj => hown j ?_
    exact attendsTo_run hr hgone (show (r.run [action]).AttendsTo j s from hj)

end Registry

end Multicast
