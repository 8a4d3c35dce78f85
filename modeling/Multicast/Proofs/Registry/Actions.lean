import Multicast.Proofs.Registry.Release

/-! Every run of a registry. Each action leads a settled registry to a settled one by a chain of
shifts, so that what shifts keep holds after any list of actions. -/

namespace Multicast

open Function (update)

variable {T : Terms} {r v : Registry} {s : SessionId} {i : Nat} {c : Call}

namespace Registry

/-! ### Calls that are made -/

theorem reaches_addCall (hr : Settled T r) (hd : c.directs = []) (hf : c.Fit T r)
    (hn : c.subscribed? = none) : Reaches T r (r.addCall c) := by
  obtain ⟨hshift, hsettled⟩ := hr.addCall hd hf hn
  exact ⟨Relation.ReflTransGen.single hshift, hsettled⟩

/-- A call that is made goes on at once from its start. -/
theorem reaches_startCall (hr : Settled T r) {f : Nat → Registry → Registry}
    (hf : ∀ u : Registry, Settled T u → u.calls[r.calls.length]? = some .crashed →
      Reaches T u (f r.calls.length u)) : Reaches T r (r.startCall f) := by
  have hadd := reaches_addCall hr (c := .crashed) rfl trivial rfl
  have hget : (r.addCall .crashed).calls[r.calls.length]? = some .crashed :=
    List.getElem?_concat_length
  exact hadd.trans (hf _ hadd.settled hget)

theorem reaches_subscribe (hr : Settled T r) (request : Subscription) :
    Reaches T r (r.subscribe request) := by
  unfold subscribe
  split
  · exact reaches_addCall hr rfl trivial rfl
  · have hnoted : Reaches T r (r.note (.beforeRegistered request.peer request.keys)) :=
      .of_turns hr ((Turns.refl _).note fun _ => rfl)
    exact hnoted.trans (reaches_addCall hnoted.settled rfl trivial rfl)

theorem reaches_publishHistorical (hr : Settled T r) {b : Batch Nat} (hb : T.admits b) :
    Reaches T r (r.publishHistorical b) := by
  apply reaches_startCall hr
  intro u hu hc
  obtain ⟨hturns, hrunning⟩ := turns_nextBackfill (T := T) (r := u) (P := u.posts)
    (p := .call r.calls.length) (posts_of_no_directs hc rfl) hb 0 u.members
  rcases hstep : u.nextBackfill (.call r.calls.length) b 0 u.members with ⟨v, progress⟩
  rw [hstep] at hturns hrunning
  cases progress with
  | running b' => exact .setCall hu hc rfl hturns (hrunning b' rfl) rfl
  | done n => exact .setCall_over hu hc rfl hturns rfl trivial rfl
  | crashed => exact .setCall_over hu hc rfl hturns rfl trivial rfl

theorem askGate_of_closed {p : Party} (h : r.askGate s p = (v, false)) : v = r := by
  unfold askGate at h
  split at h
  · cases h
    rfl
  · split at h
    · cases h
    · cases h
      rfl

theorem reaches_sendHistorical (hr : Settled T r) (s : SessionId) {b : Batch Nat}
    (hb : T.admits b) : Reaches T r (r.sendHistorical s b) := by
  apply reaches_startCall hr
  intro u hu hc
  split
  · exact .setCall_quiet hu hc rfl rfl (.refl _) rfl trivial rfl
  · have haway := posts_of_no_directs hc rfl
    split
    · rename_i w hgate
      obtain ⟨hturns, x, hx⟩ := turns_askGate (T := T) hgate (haway s)
      obtain ⟨y, hy, _⟩ := hturns.shifts.known hx
      rw [Posts.move_eq_give, funext haway] at hturns
      exact .setCall hu hc rfl hturns ⟨.single hy (Direct.fit_of_admits hb), trivial⟩ rfl
    · rename_i w hgate
      obtain rfl := askGate_of_closed hgate
      refine .setCall_quiet hu hc rfl rfl (Turns.count (.refl _) ?_) rfl trivial rfl
      exact Metrics.neutral_batchPublished .historical _

theorem reaches_unsubscribe (hr : Settled T r) (s : SessionId) (hj : T.mayJoin) :
    Reaches T r (r.unsubscribe s) := by
  apply reaches_startCall hr
  intro u hu hc
  obtain ⟨hturns, hremoved⟩ := turns_detach (T := T) u u.posts s .unsubscribed
  rcases hdetach : u.detach s .unsubscribed with ⟨w, found⟩
  rw [hdetach] at hturns hremoved
  cases found with
  | false => exact .setCall_quiet hu hc rfl rfl hturns rfl trivial rfl
  | true =>
    have hgone := hremoved rfl
    have hfarewell := turns_farewellStep (hu.sound.shifts hturns.shifts) hgone
      (f := .fresh) fun _ => hj
    exact reaches_unsubscribeProgress hu hc rfl rfl (hturns.trans hfarewell)
      (hfarewell.shifts.removed hgone)

theorem reaches_sweep (hr : Settled T r) : Reaches T r r.sweep := by
  apply reaches_startCall hr
  intro u hu hc
  refine reaches_settleCall hu hc rfl rfl ?_ ?_ ?_ turns_beginSweep
  · exact fun _ => rfl
  · exact fun _ _ => trivial
  · exact fun _ => rfl

theorem reaches_ping (hr : Settled T r) : Reaches T r r.ping := by
  apply reaches_startCall hr
  intro u hu hc
  obtain ⟨hturns, hrunning⟩ := turns_beginPings hu.sound (posts_of_no_directs hc rfl)
    Call.pinging (fun _ => rfl)
  rcases hstep : u.beginPings (.call r.calls.length) with ⟨w, progress⟩
  rw [hstep] at hturns hrunning
  cases progress with
  | running pass =>
    obtain ⟨hdirects, hpings⟩ := hrunning pass rfl
    exact .setCall hu hc rfl hturns ⟨hdirects, hpings⟩ rfl
  | done n => exact .setCall_over hu hc rfl hturns rfl trivial rfl
  | crashed => exact .setCall_over hu hc rfl hturns rfl trivial rfl

/-! ### Activation -/

/-- Activation starts a worker, which does not ask for the gate yet. -/
theorem post_activate {x : Session} {P : Party → Post} {log : List WriteMark}
    (h : Lane.Lawful T ⟨x, P, log⟩) : x.activate.1.worker.post = x.worker.post := by
  cases hs : x.stage with
  | active => simp only [Session.activate, hs]
  | removed => simp only [Session.activate, hs]
  | registered =>
    have habsent : x.worker = .absent := h.worker_of_stage.1 hs
    simp only [Session.activate, hs]
    split
    · rw [habsent]
      rfl
    · rfl

theorem reaches_activate (hr : Settled T r) (s : SessionId) : Reaches T r (r.activate s).1 := by
  unfold activate
  cases hx : r.session? s with
  | none => exact .refl hr
  | some x =>
    have hturn : Lane.Turn T ⟨x, r.posts s, r.log s⟩ ⟨x.activate.1, r.posts s, r.log s⟩ := .activate
    have hleads : x.stage.Leads x.activate.1.stage := hturn.stage_leads
    have hstage : x.activate.1.stage = .removed ↔ x.stage = .removed := by
      refine ⟨?_, fun h => hleads.removed h⟩
      intro h
      cases hs : x.stage with
      | removed => rfl
      | active => simp [Session.activate, hs] at h
      | registered =>
        simp only [Session.activate, hs] at h
        split at h <;> cases h
    have hput (es : List Event) (he : ∀ e ∈ es, ∀ t, e.mark? t = none) :
        Reaches T r (r.put s x.activate.1 es) := by
      -- the worker that is started has not asked for the gate, as one that is absent
      have hposts : (r.put s x.activate.1 es).posts = r.posts := by
        refine posts_congr rfl ?_
        intro t
        by_cases ht : t = s
        · subst ht
          rw [session?_put_self hx, hx, Option.map_some, Option.map_some,
            post_activate (hr.sound.lawful t x hx)]
        · rw [session?_put_of_ne _ ht]
      refine .of_shifts hr ?_ rfl List.length_set
      rw [hposts]
      exact Relation.ReflTransGen.single (.lane hx he hstage .activate)
    dsimp only
    rcases hactivate : x.activate with ⟨y, started⟩
    rw [hactivate] at hput
    cases started with
    | true =>
      dsimp only
      rw [update_eq_put hx]
      apply hput [_]
      intro e he t
      rw [List.mem_singleton.mp he]
      rfl
    | false =>
      dsimp only
      rw [update_eq_put hx]
      apply hput []
      intro e he
      cases he

/-! ### The end of a registry -/

theorem reaches_addCalls (hr : Settled T r) {cs : List Call} (hd : ∀ c ∈ cs, c.directs = [])
    (hf : ∀ c ∈ cs, c.Fit T r) (hn : ∀ c ∈ cs, c.subscribed? = none) :
    Reaches T r { r with calls := r.calls ++ cs } := by
  induction cs generalizing r with
  | nil =>
    rw [List.append_nil]
    exact .refl hr
  | cons c rest ih =>
    have hfirst := reaches_addCall hr (hd c List.mem_cons_self) (hf c List.mem_cons_self)
      (hn c List.mem_cons_self)
    have hrest := ih hfirst.settled (fun d hm => hd d (List.mem_cons_of_mem c hm))
      (fun d hm => ?_) (fun d hm => hn d (List.mem_cons_of_mem c hm))
    · have hcalls : (r.addCall c).calls ++ rest = r.calls ++ c :: rest := by
        simp [addCall]
      rw [hcalls] at hrest
      exact hfirst.trans hrest
    · have hfit := hf d (List.mem_cons_of_mem c hm)
      cases d <;> exact hfit

/-- All members leave, which is counted as the reason asks. -/
theorem reaches_evacuate (hr : Settled T r) {es : List Event}
    (he : ∀ e ∈ es, ∀ t, e.mark? t = none) {f : Metrics → Metrics}
    (hf : T.mayDrop ∨ f = fun m => (m.setSessions 0).sessionsRemoved .shutdown r.members.length) :
    Reaches T r { r with
      sessions := r.sessions.mapIdx fun s x => if s ∈ r.members then x.remove else x
      members := []
      stopped := true
      metrics := f r.metrics
      history := es ++ r.history } := by
  have hshift := Shift.evacuate (T := T) (r := r) (P := r.posts) es he f hf
  refine .of_shifts hr ?_ rfl List.length_mapIdx
  have hworkers (t : SessionId) : Option.map (fun x : Session => x.worker.post)
      (r.sessions.mapIdx fun s x => if s ∈ r.members then x.remove else x)[t]? =
      (r.session? t).map fun x => x.worker.post := by
    rw [List.getElem?_mapIdx, Option.map_map, session?]
    congr 1
    funext x
    dsimp only [Function.comp_apply]
    split <;> rfl
  have hposts := posts_congr (r := r) (v := { r with
    sessions := r.sessions.mapIdx fun s x => if s ∈ r.members then x.remove else x
    members := []
    stopped := true
    metrics := f r.metrics
    history := es ++ r.history }) rfl hworkers
  rw [hposts]
  exact Relation.ReflTransGen.single hshift

/-- Everybody leaves when the registry stops, and a call takes leave of each. -/
theorem reaches_stop (hr : Settled T r) : Reaches T r r.stop := by
  unfold stop
  split
  · exact reaches_addCall hr rfl trivial rfl
  · obtain ⟨es, he, hevacuate⟩ := evacuate_eq hr.sound
    rw [hevacuate]
    dsimp only
    -- the members leave first; then the call to stop and the farewells are made
    have hgone := reaches_evacuate hr he
      (f := fun m => (m.setSessions 0).sessionsRemoved .shutdown r.members.length) (.inr rfl)
    have hadd := reaches_addCall hgone.settled (c := .stopping {
      count := r.members.length
      deadline := r.now + r.config.removalTimeout.millis
      waiting := (List.range r.members.length).map (r.calls.length + 1 + ·) }) rfl trivial rfl
    refine (hgone.trans hadd).trans (reaches_addCalls hadd.settled ?_ ?_ ?_)
    · intro c hc
      obtain ⟨s, _, rfl⟩ := List.mem_map.mp hc
      rfl
    · intro c hc
      obtain ⟨s, hs, rfl⟩ := List.mem_map.mp hc
      -- the subscriber was a member, so that it has been removed just now
      obtain ⟨x, hx, _⟩ := (hr.sound.mem_iff s).mp hs
      refine ⟨x.remove, ?_, rfl⟩
      show (r.sessions.mapIdx fun s x => if s ∈ r.members then x.remove else x)[s]? = _
      rw [List.getElem?_mapIdx, show r.sessions[s]? = some x from hx, Option.map_some, if_pos hs]
    · intro c hc
      obtain ⟨s, _, rfl⟩ := List.mem_map.mp hc
      rfl

/-- Everybody leaves when the registry is dropped, which is not counted. -/
theorem reaches_drop (hr : Settled T r) (hd : T.mayDrop) : Reaches T r r.drop := by
  unfold drop
  split
  · exact .refl hr
  · obtain ⟨es, he, hevacuate⟩ := evacuate_eq hr.sound
    rw [hevacuate]
    -- the drop notes one event more than the removals do
    have hmarks : ∀ e ∈ Event.dropped r.members.length :: es, ∀ t, e.mark? t = none := by
      intro e hmem t
      rcases List.mem_cons.mp hmem with rfl | hmem
      · rfl
      · exact he e hmem t
    exact reaches_evacuate hr hmarks (f := id) (.inl hd)

/-! ### What else reaches a registry -/

theorem reaches_beside (hr : Settled T r) {now : Nat} (hn : r.now ≤ now) (tokens : List String) :
    Reaches T r { r with now := now, cancelledTokens := tokens } :=
  .of_shifts hr (Relation.ReflTransGen.single (.beside r.calls now tokens hn)) rfl rfl

theorem reaches_sink (hr : Settled T r) {x : Session} (hx : r.session? s = some x) (k : Sink) :
    Reaches T r (r.update s fun x => { x with sink := k }) :=
  .of_turns hr ((Turns.refl _).snoc (.sink hx k))

theorem reaches_receive (hr : Settled T r) (s : SessionId) :
    Reaches T r (((r.receive? s).map (·.2)).getD r) := by
  unfold receive?
  cases hx : r.session? s with
  | none => exact .refl hr
  | some x =>
    rw [Option.map_some]
    split
    · rename_i c hsink
      cases c.receive? with
      | none => exact .refl hr
      | some received => exact reaches_sink hr hx (.channel received.2)
    · exact .refl hr

theorem reaches_dropReceiver (hr : Settled T r) (s : SessionId) :
    Reaches T r (r.dropReceiver s) := by
  unfold dropReceiver
  cases hx : r.session? s with
  | none =>
    rw [update_of_none hx]
    exact .refl hr
  | some x =>
    cases hsink : x.sink with
    | channel c =>
      have hclose := reaches_sink hr hx (.channel c.close)
      rw [update_eq_put hx] at hclose ⊢
      simpa only [hsink] using hclose
    | scripted outcomes =>
      rw [update_eq_put hx, hsink, put_self hx]
      exact .refl hr

/-- A loop begins a pass only when none is under way. -/
theorem reaches_tick (hr : Settled T r) (i : Nat) : Reaches T r (r.tick i) := by
  unfold tick
  split
  · rename_i l hc
    split
    · exact reaches_sweepTick hr hc
    · exact .refl hr
  · rename_i l hc
    split
    · rename_i hdue
      have hidle := (Bool.and_eq_true_iff.mp hdue).1
      exact reaches_pingTick hr hc (Option.isNone_iff_eq_none.mp hidle)
    · exact .refl hr
  · exact .refl hr

end Registry

end Multicast
