import Multicast.Proofs.Registry.Attended
import Multicast.Proofs.Registry.Retirement

/-! Subscribers at rest. Nothing is under way for such a subscriber but writes: no worker is up, no
call attends to it, and no delivery runs its callback. Once it is removed it stays at rest. -/

namespace Multicast

open Function (update)

variable {T : Terms} {a b : Posted} {s : SessionId} {x : Session}

/-! ### Deliveries -/

namespace Lane

/-- Each delivery to the subscriber that is under way writes; none has come to the callback. -/
def OnlyWrites (l : Lane) : Prop := ∀ p d, l.posts p = .busy d → d.isWriting = true

theorem onlyWrites_fresh (request : Subscription) (room : Nat) :
    (fresh request room).OnlyWrites := nofun

variable {l l' : Lane}

/-- One party changes its post, and does not come to a callback by that. -/
theorem OnlyWrites.update {y : Session} {P : Party → Post} {log log' : List WriteMark} {p : Party}
    {post : Post} (h : OnlyWrites ⟨x, P, log⟩) (hpost : ∀ d, post = .busy d → d.isWriting = true) :
    OnlyWrites ⟨y, update P p post, log'⟩ := by
  intro q d (hd : Function.update P p post q = .busy d)
  by_cases hq : q = p
  · subst hq
    rw [Function.update_self] at hd
    exact hpost d hd
  · rw [Function.update_of_ne hq] at hd
    exact h q d hd

/-- A delivery comes to the callback only in the turn that removes the subscriber. -/
theorem OnlyWrites.turn (h : l.OnlyWrites) (t : Turn T l l') :
    l'.OnlyWrites ∨ l.session.stage ≠ .removed ∧ l'.session.stage = .removed := by
  cases t with
  | adjust | take | work | activate | enqueue | reclose | remove => exact .inl h
  | join | leave | crash => exact .inl (h.update nofun)
  | succeed p d hp hw => exact .inl (h.update nofun)
  | begin p d sink hp hg hc hw hd =>
    refine .inl (h.update fun e he => ?_)
    obtain rfl := Post.busy.inj he
    exact hw
  | goOn p d d' hp hf hk hw =>
    refine .inl (h.update fun e he => ?_)
    obtain rfl := Post.busy.inj he
    exact hw.trans (h p d hp)
  | fall p d d' hp hw hx hd => exact .inr ⟨hx, rfl⟩
  | settle p d post hp hd hq =>
    -- the delivery writes, so that it can only end
    obtain ⟨-, rfl⟩ := hd (h p d hp)
    exact .inl (h.update nofun)

end Lane

/-- No delivery to a subscriber that is removed comes to the callback later. -/
theorem Shifts.onlyWrites (h : Shifts T a b) (hs : Sound T a) (hx : a.registry.session? s = some x)
    (hr : x.stage = .removed) (hw : (a.lane s x).OnlyWrites) :
    ∃ y, b.registry.session? s = some y ∧ (b.lane s y).OnlyWrites := by
  obtain ⟨y, hy, -, hlater⟩ := h.lane_keep (I := fun l => l.session.stage = .removed ∧ l.OnlyWrites)
    (fun l l' _ hl t => ⟨t.stage_leads.removed hl.1,
      (hl.2.turn t).resolve_right fun hleft => hleft.1 hl.1⟩) hs hx ⟨hr, hw⟩
  exact ⟨y, hy, hlater⟩

namespace Registry

variable {r : Registry} {config : Config} {hooks : Hooks} {actions : List Action}

/-- No delivery to a subscriber that is not removed has come to the callback. -/
theorem onlyWrites_run (hx : ((new config hooks).run actions).session? s = some x)
    (hs : x.stage ≠ .removed) {p : Party} {d : Delivery}
    (hd : ((new config hooks).run actions).posts s p = .busy d) : d.isWriting = true := by
  have hwrites := run_lane_induction (T := .any config hooks True)
    (I := fun l => l.session.stage ≠ .removed → l.OnlyWrites) rfl rfl
    (fun action _ => action.keeps_any) (fun request room _ => Lane.onlyWrites_fresh request room)
    (fun l l' _ h t hs' => ?_) hx
  · exact hwrites hs p d hd
  · have hstage : l.session.stage ≠ .removed := fun hremoved =>
      hs' (t.stage_leads.removed hremoved)
    exact ((h hstage).turn t).resolve_right fun hleft => hs' hleft.2

/-! ### At rest -/

/-- Nothing is under way for a subscriber but writes: no worker of it is up, no call attends to it,
and no delivery has come to its callback. -/
structure AtRest (r : Registry) (s : SessionId) : Prop where
  idle : ∀ x, r.session? s = some x → x.worker.isUp = false
  unattended : ∀ i, ¬ r.AttendsTo i s
  writes : ∀ p d, r.posts s p = .busy d → d.isWriting = true

/-- A subscriber that is removed and at rest stays at rest. -/
theorem atRest_run (hr : Settled (.any config hooks True) r) (hgone : r.isGone s = true)
    (h : r.AtRest s) (actions : List Action) : (r.run actions).AtRest s := by
  obtain ⟨x, hx, hstage⟩ := isGone_iff.mp hgone
  have hreaches := reaches_any_run hr actions
  obtain ⟨y, hy, hretired⟩ := hreaches.shifts.retired hr.sound hx ⟨hstage, h.idle x hx⟩
  obtain ⟨z, hz, hwrites⟩ := hreaches.shifts.onlyWrites hr.sound hx hstage h.writes
  refine ⟨?_, fun i hi => h.unattended i (attendsTo_run hr hgone hi), hwrites⟩
  intro w hw
  obtain rfl := Option.some.inj (hy.symm.trans hw)
  exact hretired.down

/-- Nothing is under way for a subscriber that is not there. -/
theorem atRest_of_stranger (hs : ((new config hooks).run actions).session? s = none) :
    ((new config hooks).run actions).AtRest s := by
  have hsettled := settled_any_run config hooks actions
  obtain ⟨haway, -⟩ := hsettled.sound.strangers s hs
  refine ⟨?_, ?_, ?_⟩
  · intro x hx
    rw [hs] at hx
    cases hx
  · intro i hi
    obtain ⟨x, hx, -⟩ := isGone_iff.mp (isGone_of_attendsTo hi)
    rw [hs] at hx
    cases hx
  · intro p d hd
    cases (haway p).symm.trans hd

end Registry

end Multicast
