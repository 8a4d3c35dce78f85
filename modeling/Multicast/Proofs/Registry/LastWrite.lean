import Multicast.Proofs.Registry.CallList
import Multicast.Proofs.Registry.Line
import Multicast.Proofs.Registry.RemovedForGood
import Multicast.Proofs.Registry.Retirement
import Multicast.Proofs.Traffic.Hand

/-! The last write to a subscriber that is unsubscribed. When the callback after the removal runs,
no worker is up, no write begins any more, and at most one is under way, which a call makes that had
the gate already. Only that write can still be recorded. The sinks here do not call the registry, so
that nobody unsubscribes a subscriber from within a write of its worker; such a call could not wait
for the worker. -/

namespace Multicast

/-- Two states of a subscriber in which the same has become of the writes to it. -/
structure Session.SameRecord (x y : Session) : Prop where
  cursor : y.cursor = x.cursor
  lastSent : y.lastSent = x.lastSent
  writes : y.writes = x.writes

namespace Session.SameRecord

variable {x y z : Session}

theorem refl (x : Session) : x.SameRecord x := ⟨rfl, rfl, rfl⟩

theorem trans (h : x.SameRecord y) (h' : y.SameRecord z) : x.SameRecord z :=
  ⟨h'.cursor.trans h.cursor, h'.lastSent.trans h.lastSent, h'.writes.trans h.writes⟩

/-- The same write makes the same of both. -/
theorem served (h : x.SameRecord y) {d e : Delivery} (hf : e.frame = d.frame)
    (hk : e.keepAlive = d.keepAlive) : (x.served d).SameRecord (y.served e) := by
  have hwrites : y.writes + 1 = x.writes + 1 := congrArg (· + 1) h.writes
  unfold Session.served
  rw [hk, hf]
  cases d.keepAlive with
  | true => exact ⟨h.cursor, h.lastSent, hwrites⟩
  | false =>
    refine ⟨?_, rfl, hwrites⟩
    simp only [Bool.false_eq_true, if_false, Session.recordDelivery, Session.recordWrite, h.cursor]

end Session.SameRecord

open Function (update)

/-- Each write that is under way at the posts `Q` is under way at the posts `P`. -/
def WritesOn (P Q : Party → Post) : Prop :=
  ∀ p e, Q p = .busy e → e.isWriting = true → ∃ d, P p = .busy d ∧ d.isWriting = true ∧
    e.frame = d.frame ∧ e.keepAlive = d.keepAlive

namespace WritesOn

variable {P Q R : Party → Post} {p : Party} {post : Post}

theorem refl (P : Party → Post) : WritesOn P P := fun _ e he hw => ⟨e, he, hw, rfl, rfl⟩

theorem trans (h : WritesOn P Q) (h' : WritesOn Q R) : WritesOn P R := by
  intro p f hf hw
  obtain ⟨e, he, hwe, hframe, hkeep⟩ := h' p f hf hw
  obtain ⟨d, hd, hwd, hframe', hkeep'⟩ := h p e he hwe
  exact ⟨d, hd, hwd, hframe.trans hframe', hkeep.trans hkeep'⟩

/-- One party changes its post, and does not come to a write by that. -/
theorem update (h : ∀ e, post = .busy e → e.isWriting = true → ∃ d, P p = .busy d ∧
    d.isWriting = true ∧ e.frame = d.frame ∧ e.keepAlive = d.keepAlive) :
    WritesOn P (update P p post) := by
  intro q e he hw
  by_cases hq : q = p
  · subst hq
    rw [Function.update_self] at he
    exact h e he hw
  · rw [Function.update_of_ne hq] at he
    exact ⟨e, he, hw, rfl, rfl⟩

end WritesOn

namespace Lane

variable {T : Terms} {l l' l'' : Lane}

/-- A lane `l` whose subscriber is removed has come to `l'`: of the writes that were under way none
has been recorded yet, or one has and none is left. -/
structure Ebbs (l l' : Lane) : Prop where
  removed : l'.session.stage = .removed
  gated : l'.Gated
  record : (l.session.SameRecord l'.session ∧ WritesOn l.posts l'.posts) ∨
    ∃ p d, l.posts p = .busy d ∧ d.isWriting = true ∧ (l.session.served d).SameRecord l'.session ∧
      ∀ q e, l'.posts q = .busy e → e.isWriting = false

theorem Ebbs.refl (hs : l.session.stage = .removed) (hg : l.Gated) : l.Ebbs l :=
  ⟨hs, hg, .inl ⟨.refl _, .refl _⟩⟩

/-- A turn in which no write succeeds or begins. -/
theorem Ebbs.quiet (h : l.Ebbs l') (hs : l''.session.stage = .removed) (hg : l''.Gated)
    (hr : l'.session.SameRecord l''.session) (hp : WritesOn l'.posts l''.posts) : l.Ebbs l'' := by
  refine ⟨hs, hg, ?_⟩
  rcases h.record with ⟨hrecord, hwrites⟩ | ⟨p, d, hd, hw, hrecord, hnone⟩
  · exact .inl ⟨hrecord.trans hr, hwrites.trans hp⟩
  · refine .inr ⟨p, d, hd, hw, hrecord.trans hr, ?_⟩
    intro q f hf
    by_contra hwf
    obtain ⟨e, he, hwe, -⟩ := hp q f hf (eq_true_of_ne_false hwf)
    rw [hnone q e he] at hwe
    cases hwe

/-- A write that succeeds was under way from the beginning, and no other is. -/
theorem Ebbs.succeed {x : Session} {P : Party → Post} {log : List WriteMark}
    (h : l.Ebbs ⟨x, P, log⟩) {p : Party} {d : Delivery} (hp : P p = .busy d)
    (hw : d.isWriting = true) (hg : Gated ⟨x.served d, update P p .waiting, log⟩) :
    l.Ebbs ⟨x.served d, update P p .waiting, log⟩ := by
  have hstage : (x.served d).stage = .removed := by
    obtain ⟨cursor, lastSent, -, hserved⟩ := x.exists_served_eq d
    rw [hserved]
    exact h.removed
  refine ⟨hstage, hg, .inr ?_⟩
  rcases h.record with ⟨hrecord, hwrites⟩ | ⟨_, _, -, -, -, hnone⟩
  · obtain ⟨d₀, hd₀, hw₀, hframe, hkeep⟩ := hwrites p d hp hw
    refine ⟨p, d₀, hd₀, hw₀, hrecord.served hframe hkeep, ?_⟩
    intro q e (he : update P p .waiting q = .busy e)
    -- whoever is busy has the gate, which the party of the write had
    have hq : q ≠ p := by
      rintro rfl
      rw [Function.update_self] at he
      cases he
    rw [Function.update_of_ne hq] at he
    exact absurd (h.gated.eq_of_holds he (h.gated.holds p d hp)) hq
  · rw [hnone p d hp] at hw
    cases hw

theorem Ebbs.turn (h : l.Ebbs l') (hl : l'.Lawful T) (t : Turn T l' l'') : l.Ebbs l'' := by
  have hstage : l''.session.stage = .removed := t.stage_leads.removed h.removed
  have hgated : l''.Gated := h.gated.turn t
  have hstays {P : Party → Post} {p : Party} {post : Post} (hpost : ∀ e, post ≠ .busy e) :
      WritesOn P (update P p post) := .update fun e he => absurd he (hpost e)
  cases t with
  | adjust | take | work | reclose | remove =>
    exact h.quiet hstage hgated ⟨rfl, rfl, rfl⟩ (.refl _)
  | @enqueue x P log b hb hc =>
    have hrecord : x.SameRecord (x.enqueue b).1 := by
      rw [Session.enqueue_of_open b hc]
      exact ⟨rfl, rfl, rfl⟩
    exact h.quiet hstage hgated hrecord (.refl _)
  | @activate x P log =>
    have hrecord : x.SameRecord x.activate.1 := by
      obtain ⟨_, _, _, _, hx⟩ := x.exists_activate_eq
      rw [hx]
      exact ⟨rfl, rfl, rfl⟩
    exact h.quiet hstage hgated hrecord (.refl _)
  | join | leave | crash =>
    exact h.quiet hstage hgated ⟨rfl, rfl, rfl⟩ (hstays nofun)
  | begin p d sink hp hg hc hw hd =>
    -- the queue is closed
    have hclosed := hl.closed.mpr h.removed
    rw [show _ = false from hc] at hclosed
    cases hclosed
  | goOn p d d' hp hf hk hw =>
    refine h.quiet hstage hgated (.refl _) (.update ?_)
    rintro e he hwe
    obtain rfl := Post.busy.inj he
    exact ⟨d, hp, hw ▸ hwe, hf, hk⟩
  | fall p d d' hp hw hx hd => exact absurd h.removed hx
  | settle p d post hp hd hq =>
    refine h.quiet hstage hgated (.refl _) (.update ?_)
    rintro e rfl hwe
    rcases hq with hwaits | ⟨d', hd', hw'⟩
    · cases hwaits
    · obtain rfl := Post.busy.inj hd'
      rw [hw'] at hwe
      cases hwe
  | succeed p d hp hw =>
    have hsucceed := h.succeed hp hw ⟨hgated.nodup, hgated.inLine, hgated.holds⟩
    exact ⟨hsucceed.removed, hgated, hsucceed.record⟩

end Lane

variable {T : Terms} {a b : Posted} {s : SessionId} {x : Session}

/-- What can still become of a subscriber that is removed. -/
theorem Shifts.ebbs (h : Shifts T a b) (hs : Sound T a) (hx : a.registry.session? s = some x)
    (hr : x.stage = .removed) (hg : (a.lane s x).Gated) :
    ∃ y, b.registry.session? s = some y ∧ (a.lane s x).Ebbs (b.lane s y) :=
  h.lane_keep (I := fun l => (a.lane s x).Ebbs l) (fun _ _ hl hi t => hi.turn hl t) hs hx
    (.refl hr hg)

/-! ### The call that unsubscribes -/

/-- Whether a call stands where one may that was made to unsubscribe a subscriber: as long as it
takes leave of the subscriber, that is removed and fits the point. -/
def Call.Unsubscribes (r : Registry) (s : SessionId) : Call → Prop
  | .unsubscribing t f => t = s ∧ f ≠ .fresh ∧
      ∃ x, r.session? s = some x ∧ x.stage = .removed ∧ f.Fits x
  | .returned _ | .crashed => True
  | _ => False

namespace Registry

variable {r v : Registry} {i : Nat} {c : Call} {y : Session} {config : Config} {hooks : Hooks}

theorem Unsubscribes.tracked (h : c.Unsubscribes r s) : c.Tracked := by
  cases c with
  | unsubscribing | returned | crashed => trivial
  | _ => exact h.elim

/-- Whatever happens beside the call, the subscriber fits the point at which it stands. -/
theorem Unsubscribes.shifts (h : c.Unsubscribes r s) (hr : Settled T r)
    (hrv : Shifts T ⟨r, r.posts⟩ ⟨v, v.posts⟩) : c.Unsubscribes v s := by
  cases c with
  | returned | crashed => trivial
  | unsubscribing t f =>
    obtain ⟨rfl, hfresh, x, hx, hstage, hfits⟩ := h
    exact ⟨rfl, hfresh, hrv.fits hr.sound hx hstage hfresh hfits⟩
  | _ => exact h.elim

theorem unsubscribes_unsubscribeProgress
    {o : Registry × Progress Farewell (Except HookError Unit)} (hi : i < o.1.calls.length)
    (hy : o.1.session? s = some y) (hs : y.stage = .removed) (hf : o.2.Fits y) :
    ∃ c, (unsubscribeProgress i s o).calls[i]? = some c ∧
      c.Unsubscribes (unsubscribeProgress i s o) s := by
  obtain ⟨w, progress⟩ := o
  cases progress with
  | running f => exact ⟨_, List.getElem?_set_self hi, rfl, hf.1, y, hy, hs, hf.2⟩
  | crashed => exact ⟨_, List.getElem?_set_self hi, trivial⟩
  | done result =>
    cases result with
    | ok _ => exact ⟨_, List.getElem?_set_self hi, trivial⟩
    | error e => exact ⟨_, List.getElem?_set_self hi, trivial⟩

/-- To remove a subscriber that is there leaves the calls alone. -/
theorem exists_detach_eq (hx : r.session? s = some x) (hs : x.stage ≠ .removed)
    (reason : RemovalReason) : ∃ w, r.detach s reason = (w, true) ∧
      w.session? s = some x.remove ∧ w.calls = r.calls := by
  obtain ⟨es, -, hdetach⟩ := detach_eq hx hs reason
  exact ⟨_, hdetach, session?_put_self hx _ es, rfl⟩

/-- A call that unsubscribes a subscriber which is there takes leave of it at once. -/
theorem unsubscribes_unsubscribe (hr : Settled T r)
    (hj : ∀ x, r.session? s = some x → x.stage ≠ .removed →
      x.queue.unjoined = x.queue.started) :
    ∃ c, (r.unsubscribe s).calls[r.calls.length]? = some c ∧
      c.Unsubscribes (r.unsubscribe s) s := by
  have hlength : r.calls.length < (r.addCall .crashed).calls.length := by
    simp [addCall]
  unfold unsubscribe startCall
  dsimp only
  rcases (r.addCall .crashed).present_or_gone s with ⟨x, hx, hstage⟩ | hgone
  · obtain ⟨w, hdetach, hnow, hcalls⟩ := exists_detach_eq hx hstage .unsubscribed
    have hfits := fits_remove (hr.sound.lawful s x hx) (hj x hx hstage)
    obtain ⟨y, hy, hys, -, hyf⟩ := fits_farewellStep hnow (f := .fresh) rfl hfits
    obtain ⟨k, heffect, -⟩ :=
      effect_farewellStep (q := none) (isGone_iff.mpr ⟨_, hnow, rfl⟩) .fresh
    rw [hdetach]
    refine unsubscribes_unsubscribeProgress ?_ hy hys hyf
    rw [heffect.calls, hcalls]
    exact hlength
  · rw [detach_of_removed hgone]
    exact ⟨_, List.getElem?_set_self hlength, trivial⟩

theorem unsubscribes_apply (hr : Settled (.any config hooks True) r) (hc : r.calls[i]? = some c)
    (h : c.Unsubscribes r s) (action : Action) :
    ∃ c', (r.apply action).calls[i]? = some c' ∧ c'.Unsubscribes (r.apply action) s := by
  have hreaches := reaches_apply hr action.keeps_any
  rcases tracked_apply hr hc (Unsubscribes.tracked h) action with ⟨hsame, -⟩ | ⟨rfl, hready⟩
  · exact ⟨c, hsame, Unsubscribes.shifts h hr hreaches.shifts⟩
  · have hsteps := apply_call hc hready
    cases c with
    | returned | crashed => cases hready
    | unsubscribing t f =>
      obtain ⟨rfl, -, x, hx, hstage, hfits⟩ := h
      obtain ⟨y, hy, hys, -, hyf⟩ := fits_farewellStep hx hready hfits
      obtain ⟨k, heffect, -⟩ :=
        effect_farewellStep (q := none) ((isGone_of_session? hx).mpr hstage) f
      rw [hsteps]
      refine unsubscribes_unsubscribeProgress ?_ hy (hys.trans hstage) hyf
      rw [heffect.calls]
      exact (List.getElem?_eq_some_iff.mp hc).1
    | _ => exact h.elim

theorem unsubscribes_run (hr : Settled (.any config hooks True) r) (hc : r.calls[i]? = some c)
    (h : c.Unsubscribes r s) (actions : List Action) :
    ∃ c', (r.run actions).calls[i]? = some c' ∧ c'.Unsubscribes (r.run actions) s := by
  induction actions generalizing r c with
  | nil => exact ⟨c, hc, h⟩
  | cons action rest ih =>
    have hnext := (reaches_apply hr action.keeps_any).settled
    obtain ⟨c', hc', h'⟩ := unsubscribes_apply hr hc h action
    exact ih hnext hc' h'

/-- One party at most delivers to a subscriber at any moment. -/
theorem gated_run (actions : List Action) {x : Session}
    (hx : ((new config hooks).run actions).session? s = some x) :
    Lane.Gated ⟨x, ((new config hooks).run actions).posts s,
      ((new config hooks).run actions).log s⟩ :=
  run_lane_induction (T := .any config hooks True) rfl rfl (fun action _ => action.keeps_any)
    Lane.gated_fresh (fun _ _ _ h t => h.turn t) hx

/-- The last write. In every run, while a call that has unsubscribed a subscriber runs the callback
after the removal, the subscriber is removed and has no worker that is up; one party at most
delivers to it, and that is no worker. From then on no write to it begins; the cursor, the batch
sent last and the number of writes stay as they are for good, or become what the one write makes of
them that a call has under way. -/
theorem last_write_of_unsubscribed (config : Config) (hooks : Hooks) (before after : List Action)
    (s : SessionId) (hook : HookRun)
    (hcall : ((new config hooks).run (before ++ .unsubscribe s :: after)).calls[
      ((new config hooks).run before).calls.length]? = some (.unsubscribing s (.saying hook))) :
    let r := (new config hooks).run (before ++ .unsubscribe s :: after)
    ∃ x, r.session? s = some x ∧ x.stage = .removed ∧ x.worker.isUp = false ∧
      (∀ d, r.posts s .worker ≠ .busy d) ∧
      (∀ p d q e, r.posts s p = .busy d → r.posts s q = .busy e → p = q) ∧
      ∀ more, let v := r.run more
        ∃ y, v.session? s = some y ∧ y.stage = .removed ∧ y.worker.isUp = false ∧
          (v.log s).countP WriteMark.isBegun = (r.log s).countP WriteMark.isBegun ∧
          (x.SameRecord y ∨ ∃ i d, r.posts s (.call i) = .busy d ∧ d.isWriting = true ∧
            (x.served d).SameRecord y) := by
  intro r
  have hbefore := settled_any_run config hooks before
  have hr : Settled (.any config hooks True) r := settled_any_run ..
  have hnext := (reaches_apply hbefore (Action.unsubscribe s).keeps_any).settled
  -- the call that was made still fits, now that it runs the callback
  obtain ⟨c, hc, hmade⟩ := unsubscribes_unsubscribe hbefore fun x hx hs => joinable_run hx hs
  obtain ⟨c', hc', hnow⟩ := unsubscribes_run hnext hc hmade after
  have hrun : r = (((new config hooks).run before).apply (.unsubscribe s)).run after :=
    run_append _ before (.unsubscribe s :: after)
  rw [← hrun] at hc' hnow
  obtain rfl := Option.some.inj (hc'.symm.trans hcall)
  obtain ⟨-, -, x, hx, hstage, hdown⟩ := hnow
  have hgated : Lane.Gated ⟨x, r.posts s, r.log s⟩ := gated_run _ hx
  have hworker : ∀ d, r.posts s .worker ≠ .busy d := by
    intro d hd
    rw [posts_worker hx] at hd
    have hidle : x.worker.isUp = false := hdown
    cases hw : x.worker with
    | delivering run =>
      rw [hw] at hidle
      cases hidle
    | _ =>
      rw [hw] at hd
      cases hd
  refine ⟨x, hx, hstage, hdown, hworker, ?_, ?_⟩
  · exact fun p d q e hp hq => hgated.eq_of_holds hp (hgated.holds q e hq)
  · intro more v
    have hreaches : Reaches (.any config hooks True) r v := reaches_any_run hr _
    obtain ⟨y, hy, hretired⟩ := hreaches.shifts.retired hr.sound hx ⟨hstage, hdown⟩
    obtain ⟨z, hz, hebbs⟩ := hreaches.shifts.ebbs hr.sound hx hstage hgated
    obtain rfl := Option.some.inj (hy.symm.trans hz)
    refine ⟨y, hy, hretired.removed, hretired.down,
      hreaches.shifts.begun_of_removed hr.sound hx hstage, ?_⟩
    rcases hebbs.record with ⟨hsame, -⟩ | ⟨p, d, hp, hw, hserved, -⟩
    · exact .inl hsame
    · cases p with
      | worker => exact absurd hp (hworker d)
      | call i => exact .inr ⟨i, d, hp, hw, hserved⟩

/-- A subscriber is unsubscribed while a call writes to it. -/
theorem last_write_of_unsubscribed_in_write :
    let r := (new {} {}).run [.subscribe { sink := .scripted [.hold] }, .run (.call 1),
      .sendHistorical 0 ⟨[⟨5, ""⟩]⟩, .run (.call 2), .unsubscribe 0]
    ∃ x, r.session? 0 = some x ∧ ∀ more,
      ∃ y, (r.run more).session? 0 = some y ∧ y.worker.isUp = false ∧
        (x.SameRecord y ∨ ∃ i d, r.posts 0 (.call i) = .busy d ∧ d.isWriting = true ∧
          (x.served d).SameRecord y) := by
  intro r
  obtain ⟨x, hx, -, -, -, -, hlater⟩ := last_write_of_unsubscribed {} {}
    [.subscribe { sink := .scripted [.hold] }, .run (.call 1), .sendHistorical 0 ⟨[⟨5, ""⟩]⟩,
      .run (.call 2)] [] 0 ⟨0, .succeed⟩ rfl
  refine ⟨x, hx, fun more => ?_⟩
  obtain ⟨y, hy, -, hdown, -, hrecord⟩ := hlater more
  exact ⟨y, hy, hdown, hrecord⟩

/-- A write that a call has under way is recorded after the callback was called. -/
theorem write_outlives_unsubscription :
    let r := (new {} {}).run [.subscribe { sink := .scripted [.hold] }, .run (.call 1),
      .sendHistorical 0 ⟨[⟨5, ""⟩]⟩, .run (.call 2), .run (.call 2), .unsubscribe 0]
    let v := r.run [.release 0 .ok, .run (.call 2)]
    r.calls[3]? = some (.unsubscribing 0 (.saying ⟨0, .succeed⟩)) ∧
      v.calls[3]? = some (.unsubscribing 0 (.saying ⟨0, .succeed⟩)) ∧
      (r.session? 0).map (fun x => (x.cursor.position, x.lastSent, x.writes)) =
        some (none, none, 0) ∧
      (v.session? 0).map (fun x => (x.cursor.position, x.lastSent, x.writes)) =
        some (some 5, some ⟨[⟨5, ""⟩]⟩, 1) := by
  intro r v
  exact ⟨rfl, rfl, by decide +kernel, by decide +kernel⟩

end Registry

end Multicast
