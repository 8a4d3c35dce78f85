import Multicast.Proofs.Registry.OneRemoval

/-! A removal is for good. Whatever happens after it, the subscriber stays removed; nothing is
enqueued on its queue, no delivery that stands in line comes to its turn, and no write to it
begins. -/

namespace Multicast

/-- Whether a write has begun. -/
def WriteMark.isBegun : WriteMark → Bool
  | .begun _ _ => true
  | _ => false

variable {T : Terms} {a b : Posted} {s : SessionId} {x : Session}

/-- No write begins on the lane of a subscriber that is removed, since its queue is closed. -/
theorem Lane.Turn.begun_of_removed {l l' : Lane} (t : Lane.Turn T l l') (h : l.Lawful T)
    (hr : l.session.stage = .removed) :
    l'.log.countP WriteMark.isBegun = l.log.countP WriteMark.isBegun := by
  cases t with
  | begin p d sink hp hg hc hw hd =>
    have hclosed := h.closed.mpr hr
    rw [show _ = false from hc] at hclosed
    cases hclosed
  | _ => rfl

/-- No write begins from the removal of a subscriber on. -/
theorem Shifts.begun_of_removed (h : Shifts T a b) (hs : Sound T a)
    (hx : a.registry.session? s = some x) (hr : x.stage = .removed) :
    (b.registry.log s).countP WriteMark.isBegun =
      (a.registry.log s).countP WriteMark.isBegun := by
  obtain ⟨y, hy, -, hcount⟩ := h.lane_keep (I := fun l => l.session.stage = .removed ∧
      l.log.countP WriteMark.isBegun = (a.registry.log s).countP WriteMark.isBegun)
    (fun l l' hlawful hl t => ⟨t.stage_leads.removed hl.1,
      (t.begun_of_removed hlawful hl.1).trans hl.2⟩) hs hx ⟨hr, rfl⟩
  exact hcount

namespace Registry

variable {r : Registry} {i : Nat} {config : Config} {hooks : Hooks} {p : Party}

/-! ### What a subscriber that is removed refuses -/

theorem activate_of_removed (hx : r.session? s = some x) (hr : x.stage = .removed) :
    r.activate s = (r, false) := by
  have hsame : x.activate = (x, false) := by simp only [Session.activate, hr]
  have hupdate : (r.update s fun _ => x) = r := by
    rw [update_eq_put hx, put_self hx]
    rfl
  simp only [activate, hx, hsame, hupdate]

theorem offer_of_closed (hx : r.session? s = some x) (hc : x.queue.closed = true) (b : Batch Nat) :
    r.offer b s = (r, false) := by
  have hrefused : x.enqueue b = (x, false) := by
    simp only [Session.enqueue, Queue.enqueue, hc, if_true]
  simp only [offer, hx, hrefused, ite_self]

theorem askGate_eq_of_closed (hx : r.session? s = some x) (hc : x.queue.closed = true)
    (p : Party) : r.askGate s p = (r, false) := by
  simp only [askGate, hx, Queue.ask, hc, if_true]

/-- A delivery that stands in line when the subscriber is removed gives the gate back when it comes
to its turn. -/
theorem directStep_of_closed {d : Direct} (hx : r.session? d.session = some x)
    (hc : x.queue.closed = true) (hd : d.delivery = none) :
    r.directStep p d = (r.leave d.session p, .done false) := by
  simp only [directStep, hd, hx, hc, if_true]

theorem sendHistorical_of_closed (hx : r.session? s = some x) (hc : x.queue.closed = true)
    (b : Batch Nat) :
    (r.sendHistorical s b).calls = r.calls ++ [.returned (.ok (.flag false))] := by
  have hasked : (r.addCall .crashed).askGate s (.call r.calls.length) =
      (r.addCall .crashed, false) := askGate_eq_of_closed (r := r.addCall .crashed) hx hc _
  unfold sendHistorical
  cases hcancelled : (r.addCall .crashed).isCancelled s with
  | true => exact calls_startCall rfl (by simp only [hcancelled, if_true])
  | false =>
    refine calls_startCall (u := (r.addCall .crashed).count (·.batchPublished .historical 0)) rfl ?_
    simp only [hcancelled, hasked, Bool.false_eq_true, if_false]
    rfl

/-- A call that waits for the gate of a subscriber that is removed waits on, or returns that there
was no delivery. -/
theorem sending_run (hr : Settled (.any config hooks True) r) {d : Direct}
    (hc : r.calls[i]? = some (.sending d)) (hd : d.delivery = none)
    (hx : r.session? d.session = some x) (hgone : x.stage = .removed) (actions : List Action) :
    (r.run actions).calls[i]? = some (.sending d) ∨
      (r.run actions).calls[i]? = some (.returned (.ok (.flag false))) := by
  induction actions generalizing r x with
  | nil => exact .inl hc
  | cons action rest ih =>
    have hreaches := reaches_apply hr action.keeps_any
    obtain ⟨y, hy, hleads⟩ := hreaches.shifts.known hx
    rcases tracked_apply hr hc hd action with ⟨hsame, -⟩ | ⟨rfl, hready⟩
    · exact ih hreaches.settled hsame hy (hleads.removed hgone)
    · have hclosed : x.queue.closed = true := (hr.sound.lawful _ x hx).closed.mpr hgone
      have hready' : r.ready (.call i) = true := by simp only [ready, hc, hready]
      have hreturned : (r.apply (.run (.call i))).calls[i]? =
          some (.returned (.ok (.flag false))) := by
        simp only [apply, hready', if_true, step, hc, callStep, directStep_of_closed hx hclosed hd,
          sent]
        exact List.getElem?_set_self (List.getElem?_eq_some_iff.mp hc).1
      exact .inr (returned_run hreaches.settled hreturned rest)

/-- Removed is final. In every run a subscriber to which a write has failed is removed; and a
subscriber that is removed at some moment, for whatever cause, is so ever after: it is told to be, it
is no member and nothing is pending for it; it is not activated, takes no batch and gives its gate to
nobody; a delivery that has not begun, be it in line already, comes to nothing; and no write to it
begins. -/
theorem removed_for_good (config : Config) (hooks : Hooks) (actions : List Action) :
    let r := (new config hooks).run actions
    (∀ who kind e, .writeFailed who kind e ∈ r.history →
      ∃ x, r.session? who.id = some x ∧ x.stage = .removed) ∧
      ∀ s x, r.session? s = some x → x.stage = .removed → ∀ more,
        let v := r.run more
        (∃ y, v.session? s = some y ∧ y.stage = .removed ∧ y.completed = true ∧ s ∉ v.members ∧
          y.queue.size = 0) ∧
          v.activate s = (v, false) ∧
          (∀ b, v.offer b s = (v, false)) ∧
          (∀ p, v.askGate s p = (v, false)) ∧
          (∀ p d, d.session = s → d.delivery = none →
            v.directStep p d = (v.leave s p, .done false)) ∧
          (∀ b, (v.sendHistorical s b).calls = v.calls ++ [.returned (.ok (.flag false))]) ∧
          (∀ (i : Nat) (d : Direct), r.calls[i]? = some (Call.sending d) → d.session = s →
            d.delivery = none → v.calls[i]? = some (Call.sending d) ∨
              v.calls[i]? = some (Call.returned (.ok (.flag false)))) ∧
          (v.log s).countP WriteMark.isBegun = (r.log s).countP WriteMark.isBegun := by
  intro r
  have hsettled : Settled (.any config hooks True) r :=
    settled_run rfl rfl fun action _ => action.keeps_any
  refine ⟨?_, ?_⟩
  · intro who kind e he
    have htold := (passage_new config hooks actions).told [] (told_new config hooks)
    have hmem : who.id ∈ r.history.filterMap Event.failed? :=
      List.mem_filterMap.mpr ⟨_, he, rfl⟩
    exact isGone_iff.mp (htold.failed who.id hmem)
  · intro s x hx hr more v
    have hreaches := reaches_run hsettled fun action (_ : action ∈ more) => action.keeps_any
    obtain ⟨y, hy, hleads⟩ := hreaches.shifts.known hx
    have hstage : y.stage = .removed := hleads.removed hr
    have hlawful := hreaches.settled.sound.lawful s y hy
    have hclosed : y.queue.closed = true := hlawful.closed.mpr hstage
    refine ⟨⟨y, hy, hstage, hlawful.completed.mpr hstage, ?_, ?_⟩, ?_, ?_, ?_, ?_, ?_, ?_, ?_⟩
    · exact fun hmem => (hreaches.settled.sound.member_iff hy).1.mp hmem hstage
    · exact Queue.size_of_empty (hlawful.emptied hclosed)
    · exact activate_of_removed hy hstage
    · exact fun b => offer_of_closed hy hclosed b
    · exact fun p => askGate_eq_of_closed hy hclosed p
    · rintro p d rfl hd
      exact directStep_of_closed hy hclosed hd
    · exact fun b => sendHistorical_of_closed hy hclosed b
    · rintro i d hc rfl hd
      exact sending_run hsettled hc hd hx hr more
    · exact hreaches.shifts.begun_of_removed hsettled.sound hx hr

end Registry

end Multicast
