import Multicast.Proofs.Registry.Departure

/-! The accounts of departures, action by action, and over whole runs. Single calls and the tasks
remove for one cause at most; everybody leaves at once when the registry stops or is dropped. -/

namespace Multicast

namespace Registry

variable {T : Terms} {r u v : Registry} {s : SessionId} {i : Nat} {c c' : Call}
  {cause : Option Cause} {gone called : List SessionId} {out : List Departure}
  {action : Action} {config : Config} {hooks : Hooks}

/-! ### Single actions -/

theorem departs_subscribe (request : Subscription) : Departs none r (r.subscribe request) := by
  unfold subscribe
  split
  · exact .addCall (.refl r) fun _ => rfl
  · exact .addCall ((Effect.refl r).note rfl rfl) fun _ => rfl

theorem departs_publishHistorical (b : Batch Nat) : Departs none r (r.publishHistorical b) := by
  apply Departs.startCall
  rintro w - hget
  exact departs_settleCall (fun _ _ => rfl) (effect_nextBackfill 0 w.members) (fun _ => rfl) nofun
    nofun hget

theorem departs_sendHistorical (s : SessionId) (b : Batch Nat) :
    Departs none r (r.sendHistorical s b) := by
  apply Departs.startCall
  rintro w - hget
  split
  · exact .setCall (.refl w) (fun _ => rfl) nofun nofun hget fun _ => rfl
  · have hasked : Effect none [] [] w (w.askGate s (.call r.calls.length)).1 := effect_askGate
    split
    · rename_i u hgate
      rw [hgate] at hasked
      exact .setCall hasked (fun _ => rfl) nofun nofun hget fun _ => rfl
    · rename_i u hgate
      rw [hgate] at hasked
      have hcounted := hasked.count (Metrics.neutral_batchPublished .historical 0)
      exact .setCall hcounted (fun _ => rfl) nofun nofun hget fun _ => rfl

theorem departs_ping : Departs none r r.ping := by
  apply Departs.startCall
  rintro w - hget
  exact departs_settleCall (fun _ _ => rfl) effect_beginPings (fun _ => rfl) nofun nofun hget

/-- What an unsubscription does at once: it finds the subscriber gone, or removes it and stands as
the call that has removed it. -/
theorem unsubscribe_cases (r : Registry) (s : SessionId) :
    (∃ u, Effect (some .unsubscribed) [] [] (r.addCall .crashed) u ∧
      r.unsubscribe s = u.setCall r.calls.length (.returned (.ok (.flag false)))) ∨
    ∃ called u c, Effect (some .unsubscribed) [s] called (r.addCall .crashed) u ∧
      (∀ t, called.count t + c.owed t = [s].count t) ∧ c.Takes s ∧
      r.unsubscribe s = u.setCall r.calls.length c := by
  unfold unsubscribe startCall
  dsimp only
  rcases detach_cases (r.addCall .crashed) s .unsubscribed with ⟨x, hx, hs, htrue⟩ | hsame
  · have hdetach := Effect.detach hx hs .unsubscribed
    have hgone := (hdetach.gone_iff s).mpr (.inr List.mem_cons_self)
    obtain ⟨k, w, c, heffect, howed, htakes, heq⟩ := proceeds_unsubscribeProgress
      (q := some .unsubscribed) (i := r.calls.length) hgone .fresh
    have hpair : (r.addCall .crashed).detach s .unsubscribed =
        (((r.addCall .crashed).detach s .unsubscribed).1, true) := by
      rw [← htrue]
    rw [hpair]
    have hboth := hdetach.trans heffect
    refine .inr ⟨_, w, c, hboth, ?_, htakes, heq⟩
    intro t
    rw [List.append_nil, howed t, List.count_singleton, beq_eq_decide]
    simp [Farewell.owed]
  · rw [hsame]
    exact .inl ⟨_, .refl _, rfl⟩

theorem departs_unsubscribe (s : SessionId) :
    Departs (some (.unsubscribe r.calls.length)) r (r.unsubscribe s) := by
  have hget : (r.addCall .crashed).calls[r.calls.length]? = some .crashed :=
    List.getElem?_concat_length
  have hadd : Departs (some (.unsubscribe r.calls.length)) (r.addCall .crashed)
      (r.unsubscribe s) := by
    rcases unsubscribe_cases r s with ⟨u, heffect, heq⟩ | ⟨called, u, c, heffect, howed, -, heq⟩
    · rw [heq]
      exact .setCall heffect nofun nofun nofun hget fun _ => rfl
    · rw [heq]
      refine .setCall heffect nofun nofun nofun hget ?_
      intro t
      rw [howed t]
      exact (Nat.zero_add _).symm
  exact .startCall fun w hw _ => hw ▸ hadd

theorem departs_sweep : Departs (some (.sweep r.calls.length)) r r.sweep := by
  apply Departs.startCall
  rintro w - hget
  obtain ⟨gone, heffect, _⟩ := effect_nextSweep (r := w) 0 (w.members.filter w.isCancelled)
  exact departs_settleCall (fun _ _ => rfl) heffect nofun nofun nofun hget

theorem departs_run (hr : Settled T r) (t : Task) :
    Departs (r.cause? (.run t)) r (r.apply (.run t)) := by
  show Departs _ r (if r.ready t then r.step t else r)
  split
  · rename_i hready
    cases t with
    | worker s =>
      obtain ⟨gone, hgone⟩ := delivers_workerStep (r := r) (s := s)
      exact .of_effect hgone nofun nofun nofun
    | call i =>
      cases hc : r.calls[i]? with
      | none => simp [ready, hc] at hready
      | some c =>
        simp only [ready, hc] at hready
        simp only [step, cause?, hc, Option.bind_some]
        refine .of_proceeds hc (proceeds_callStep hr hc hready) ?_ ?_
        · exact fun h => by rcases Call.cause?_cases h with h | h <;> cases h
        · exact fun h => by rcases Call.cause?_cases h with h | h <;> cases h
  · exact .refl _ r

theorem departs_tick (i : Nat) : Departs (r.cause? (.tick i)) r (r.tick i) := by
  unfold tick
  split
  · rename_i l hc
    split
    · simp only [cause?, hc, Option.bind_some]
      exact .of_proceeds hc (proceeds_sweepTick l l) nofun nofun
    · exact .refl _ r
  · rename_i l hc
    split
    · simp only [cause?, hc, Option.bind_some]
      exact .of_proceeds hc (proceeds_pingTick l l) nofun nofun
    · exact .refl _ r
  · exact .refl _ r

/-- Only a call that delivers can be let go on, and no delivery owes a callback. -/
theorem owed_of_releaseCall? {now : Nat} {o : WriteOutcome}
    (h : releaseCall? now s o c = some c') (t : SessionId) : c.owed t = 0 ∧ c'.owed t = 0 := by
  cases c with
  | backfilling b =>
    obtain ⟨d, _, rfl⟩ := Option.map_eq_some_iff.mp h
    exact ⟨rfl, rfl⟩
  | sending d =>
    obtain ⟨d', _, rfl⟩ := Option.map_eq_some_iff.mp h
    exact ⟨rfl, rfl⟩
  | pinging p =>
    obtain ⟨ps, _, rfl⟩ := Option.map_eq_some_iff.mp h
    exact ⟨rfl, rfl⟩
  | pingLoop l =>
    obtain ⟨ps, _, rfl⟩ := Option.map_eq_some_iff.mp h
    exact ⟨rfl, rfl⟩
  | _ => cases h

theorem departs_release (s : SessionId) (o : WriteOutcome) :
    Departs none r (r.release s o).1 := by
  unfold release
  dsimp only
  split
  · exact .of_quiet (effect_setWorker _)
  · split
    · rename_i calls hcalls
      obtain ⟨i, c, c', hc, rfl, hcall⟩ := releaseCalls?_some hcalls
      have howed := owed_of_releaseCall? hcall
      refine Departs.setCall (.refl r) (fun _ => rfl) nofun nofun hc ?_
      intro t
      rw [(howed t).1, (howed t).2]
      rfl
    · exact .refl none r

theorem departs_receive (s : SessionId) :
    Departs none r (((r.receive? s).map (·.2)).getD r) := by
  unfold receive?
  split
  · rename_i c hc
    cases c.receive? with
    | none => exact .refl none r
    | some received => exact .of_quiet (effect_sink fun _ => .channel received.2)
  · exact .refl none r

theorem departs_dropReceiver (s : SessionId) : Departs none r (r.dropReceiver s) := by
  refine .of_quiet (Effect.update (.refl r) ?_)
  intro x _
  split <;> exact Iff.rfl

/-! ### The end of a registry -/

/-- Taking leave of many subscribers notes nothing of which account is kept. -/
theorem history_markAllRemoved (ss : List SessionId) : ∃ es, (∀ e ∈ es, e.announced? = none ∧
    e.failed? = none ∧ e.hooked? = none) ∧ (markAllRemoved ss r).1.history = es ++ r.history := by
  induction ss generalizing r with
  | nil => exact ⟨[], nofun, rfl⟩
  | cons s rest ih =>
    rw [markAllRemoved]
    by_cases hr : ∀ x, r.session? s = some x → x.stage = .removed
    · have hsame : r.markRemoved s = (r, false) := by
        unfold markRemoved
        cases hx : r.session? s with
        | none => rfl
        | some x =>
          dsimp only
          rw [hr x hx]
      rw [hsame]
      exact ih
    · rw [not_forall] at hr
      obtain ⟨x, hx⟩ := hr
      obtain ⟨hget, hstage⟩ := Classical.not_imp.mp hx
      rw [markRemoved_eq hget hstage]
      obtain ⟨es, hes, hhistory⟩ := ih
        (r := r.put s x.remove [.discarded (r.nameOf s) x.queue.heap.toList])
      refine ⟨es ++ [.discarded (r.nameOf s) x.queue.heap.toList], ?_, ?_⟩
      · intro e he
        rcases List.mem_append.mp he with he | he
        · exact hes e he
        · rw [List.mem_singleton.mp he]
          exact ⟨rfl, rfl, rfl⟩
      · rw [List.append_assoc]
        exact hhistory

/-- Everybody who is registered leaves at once, when the registry stops or is dropped. -/
theorem passage_evacuate (hr : Settled T r) {a : Cause} (ha : a = .stop ∨ a = .drop)
    {f : Metrics → Metrics} (hf : ∀ q, (f r.metrics).value (.removed q) =
      r.metrics.value (.removed q) + if a.reason? = some q then r.members.length else 0)
    {calls : List Call} (hc : ∀ s, (calls.map (·.owed s)).sum =
      r.owed s + if a = .drop then 0 else r.members.count s) :
    Passage (r.members.map (⟨·, a⟩)) r { r.evacuate.1 with
      metrics := f r.metrics
      calls := calls } := by
  obtain ⟨es, _, hevacuate⟩ := evacuate_eq hr.sound
  obtain ⟨es', hplain, hhistory⟩ := history_markAllRemoved
    (r := { r with stopped := true, members := [] }) r.members
  have hsessions : r.evacuate.1.sessions =
      r.sessions.mapIdx fun s x => if s ∈ r.members then x.remove else x := by
    rw [hevacuate]
  have hmap : (r.members.map fun s => (⟨s, a⟩ : Departure)).map Departure.session = r.members := by
    rw [List.map_map]
    exact List.map_id r.members
  have hgone (s : SessionId) : r.evacuate.1.isGone s = true ↔
      r.isGone s = true ∨ s ∈ r.members := by
    rw [isGone, isGone, session?, session?, hsessions, List.getElem?_mapIdx]
    cases hx : r.sessions[s]? with
    | none =>
      have hmem : s ∉ r.members := by
        intro hmem
        obtain ⟨y, hy, _⟩ := (hr.sound.mem_iff s).mp hmem
        cases hx.symm.trans hy
      simp [hmem]
    | some x =>
      by_cases hmem : s ∈ r.members
      · simp [hmem, Session.remove]
      · simp [hmem]
  have hfresh : ∀ s ∈ r.members, r.isGone s = false := by
    intro s hs
    obtain ⟨x, hx, hstage⟩ := (hr.sound.mem_iff s).mp hs
    exact Bool.eq_false_iff.mpr (mt (isGone_of_session? hx).mp hstage)
  have hunannounced : unannounced (r.members.map (⟨·, a⟩)) = r.members := by
    have hall : (r.members.map fun s => (⟨s, a⟩ : Departure)).filter
        (fun d => d.cause = .stop ∨ d.cause = .drop) = r.members.map (⟨·, a⟩) := by
      rw [List.filter_eq_self]
      intro d hd
      obtain ⟨s, _, rfl⟩ := List.mem_map.mp hd
      exact decide_eq_true ha
    rw [unannounced, hall, hmap]
  have hnone (g : Event → Option SessionId) (hg : ∀ e ∈ es', g e = none) :
      r.evacuate.1.history.filterMap g = r.history.filterMap g := by
    have hsame : r.evacuate.1.history = es' ++ r.history := hhistory
    rw [hsame, List.filterMap_append, List.filterMap_eq_nil_iff.mpr hg, List.nil_append]
  have hclosed : r.evacuate.1.stopped = true ∧
      r.evacuate.1.sessions.length = r.sessions.length := by
    rw [hevacuate]
    exact ⟨rfl, List.length_mapIdx⟩
  have hall : r.evacuate.1.AllGone := by
    intro s hs
    rw [hclosed.2] at hs
    apply (hgone s).mpr
    -- whoever is not removed is a member
    cases hs' : r.isGone s with
    | true => exact .inl rfl
    | false =>
      have hget : r.session? s = some r.sessions[s] := List.getElem?_eq_getElem hs
      refine .inr ((hr.sound.mem_iff s).mpr ⟨_, hget, ?_⟩)
      exact fun hstage => Bool.eq_false_iff.mp hs' ((isGone_of_session? hget).mpr hstage)
  refine ⟨?_, ?_, ?_, ?_, ?_, ?_, fun _ => hclosed, fun _ _ => hall⟩
  · intro s
    rw [hmap]
    exact hgone s
  · intro d hd
    obtain ⟨s, hs, rfl⟩ := List.mem_map.mp hd
    exact hfresh s hs
  · rw [hmap]
    exact hr.sound.nodup
  · intro q
    show (f r.metrics).value (.removed q) = _
    rw [hf, countP_map_departure]
    by_cases hq : a.reason? = some q
    · simp [hq]
    · simp [hq]
  · intro s
    show (r.evacuate.1.history.filterMap Event.hooked?).count s + (calls.map (·.owed s)).sum = _
    rw [hnone _ fun e he => (hplain e he).2.2, hc s, countP_map_departure]
    have hcount : r.members.countP (fun t => decide (t = s ∧ a ≠ .drop)) =
        if a = .drop then 0 else r.members.count s := by
      by_cases hdrop : a = .drop
      · simp [hdrop]
      · rw [if_neg hdrop, List.count]
        congr 1
        funext t
        simp [hdrop, beq_eq_decide]
    rw [hcount, hookCalls, Nat.add_assoc]
  · intro E hE
    rw [hunannounced]
    refine ⟨?_, ?_, ?_⟩
    · intro s hs
      rcases (hgone s).mp hs with hold | hnew
      · refine (hE.announced s hold).imp (List.mem_append_left _) ?_
        intro hmem
        exact (hnone _ fun e he => (hplain e he).1).symm ▸ hmem
      · exact .inl (List.mem_append_right E hnew)
    · intro s hs
      have hold : s ∈ r.history.filterMap Event.failed? :=
        (hnone _ fun e he => (hplain e he).2.1) ▸ hs
      exact (hgone s).mpr (.inl (hE.failed s hold))
    · show Heard _ r.evacuate.1.history
      rw [show r.evacuate.1.history = es' ++ r.history from hhistory]
      clear hhistory hnone
      induction es' with
      | nil => exact Heard.mono hE.heard fun s => List.mem_append_left r.members
      | cons e rest ih =>
        have hrest := ih fun e' he' => hplain e' (List.mem_cons_of_mem e he')
        exact Heard.cons hrest (hplain e List.mem_cons_self).2.2

/-! ### Every action -/

theorem leavers_perm (hg : ∀ s, v.isGone s = true ↔ r.isGone s = true ∨ s ∈ gone)
    (hf : ∀ s ∈ gone, r.isGone s = false) (hn : gone.Nodup) : (leavers r v).Perm gone := by
  unfold leavers
  rw [List.perm_ext_iff_of_nodup (List.nodup_range.filter _) hn]
  intro s
  rw [List.mem_filter, List.mem_range, Bool.and_eq_true, Bool.not_eq_true']
  constructor
  · rintro ⟨-, hv, hr⟩
    refine ((hg s).mp hv).resolve_left ?_
    rw [hr]
    exact Bool.false_ne_true
  · intro hs
    have hv := (hg s).mpr (.inr hs)
    obtain ⟨x, hx, _⟩ := isGone_iff.mp hv
    exact ⟨(List.getElem?_eq_some_iff.mp hx).1, hv, hf s hs⟩

/-- The departures that are read off the stages are those of which account is kept. -/
theorem Departs.passage (h : Departs (r.cause? action) r (r.apply action)) :
    Passage (r.departuresAt action) r (r.apply action) := by
  unfold departuresAt
  cases ha : r.cause? action with
  | none =>
    rw [ha] at h
    exact h.passage_nil
  | some a =>
    obtain ⟨out, hout, hcause⟩ := h
    have hperm : (leavers r (r.apply action)).Perm (out.map Departure.session) := by
      refine leavers_perm hout.gone_iff ?_ hout.nodup
      intro s hs
      obtain ⟨d, hd, rfl⟩ := List.mem_map.mp hs
      exact hout.fresh d hd
    have hself : (out.map Departure.session).map (fun s => (⟨s, a⟩ : Departure)) = out := by
      rw [List.map_map]
      refine (List.map_congr_left ?_).trans (List.map_id out)
      intro d hd
      have hd' : a = d.cause := Option.some.inj (ha.symm.trans (hcause d hd))
      rw [hd']
      rfl
    have hdepartures := hperm.map fun s => (⟨s, a⟩ : Departure)
    rw [hself] at hdepartures
    exact hout.perm hdepartures.symm

/-- Work that removes nobody may be said to have any cause. -/
theorem Departs.of_none (h : Departs none r v) (cause : Option Cause) : Departs cause r v := by
  obtain ⟨out, hout, hcause⟩ := h
  exact ⟨out, hout, fun d hd => nomatch hcause d hd⟩

theorem sum_map_eq_count (ss : List SessionId) (s : SessionId) :
    (ss.map fun t => if t = s then 1 else 0).sum = ss.count s := by
  induction ss with
  | nil => rfl
  | cons t rest ih =>
    rw [List.map_cons, List.sum_cons, ih, List.count_cons, Nat.add_comm, beq_eq_decide]
    simp only [decide_eq_true_iff]

/-- When the registry stops, each member leaves and a farewell that owes its callback is made. -/
theorem departs_stop (hr : Settled T r) : Departs (some .stop) r r.stop := by
  unfold stop
  split
  · exact (Departs.addCall (.refl r) fun _ => rfl).of_none _
  · have hcounted (q : RemovalReason) :
        ((r.metrics.setSessions 0).sessionsRemoved .shutdown r.members.length).value (.removed q) =
          r.metrics.value (.removed q) +
            if Cause.stop.reason? = some q then r.members.length else 0 := by
      rw [Metrics.sessionsRemoved, Metrics.value_add]
      by_cases hq : q = .shutdown
      · subst hq
        simp [Cause.reason?, Metrics.value, Metrics.setSessions]
      · have hne : Counter.removed .shutdown ≠ .removed q := fun h => hq (Counter.removed.inj h).symm
        have hne' : Cause.stop.reason? ≠ some q := fun h => hq (Option.some.inj h).symm
        rw [if_neg hne, if_neg hne']
        rfl
    have howes (p : StopPoint) (s : SessionId) :
        ((r.calls ++ Call.stopping p :: r.members.map (Call.farewell · .fresh)).map
          (Call.owed s)).sum = r.owed s + if Cause.stop = .drop then 0 else r.members.count s := by
      have hstop : Cause.stop ≠ .drop := Cause.noConfusion
      rw [if_neg hstop, List.map_append, List.sum_append, List.map_cons, List.sum_cons,
        List.map_map, ← sum_map_eq_count r.members s]
      exact congrArg (r.owed s + ·) (Nat.zero_add _)
    obtain ⟨es, _, hevacuate⟩ := evacuate_eq hr.sound
    have hmembers : r.evacuate.2 = r.members := by rw [hevacuate]
    have hcalls : r.evacuate.1.calls = r.calls := by rw [hevacuate]
    have hmetrics : r.evacuate.1.metrics = r.metrics := by rw [hevacuate]
    have hpassage := passage_evacuate hr (.inl rfl)
      (f := fun m => (m.setSessions 0).sessionsRemoved .shutdown r.members.length) hcounted (howes {
      count := r.members.length
      deadline := r.evacuate.1.now + r.evacuate.1.config.removalTimeout.millis
      waiting := (List.range r.members.length).map (r.calls.length + 1 + ·) })
    refine ⟨r.members.map (⟨·, .stop⟩), ?_, ?_⟩
    · rcases hparts : r.evacuate with ⟨w, removed⟩
      rw [hparts] at hmembers hcalls hmetrics hpassage
      dsimp only at hmembers hcalls hmetrics
      simp only [count, addCall, hmembers, hcalls, hmetrics, List.append_assoc,
        List.singleton_append]
      exact hpassage
    · intro d hd
      obtain ⟨s, _, rfl⟩ := List.mem_map.mp hd
      rfl

/-- When the registry is dropped, each member leaves, uncounted and without a callback. -/
theorem departs_drop (hr : Settled T r) : Departs (some .drop) r r.drop := by
  unfold drop
  split
  · exact .refl _ r
  · obtain ⟨es, _, hevacuate⟩ := evacuate_eq hr.sound
    have hcalls : r.evacuate.1.calls = r.calls := by rw [hevacuate]
    have hmetrics : r.evacuate.1.metrics = r.metrics := by rw [hevacuate]
    have hpassage : Passage (r.members.map (⟨·, .drop⟩)) r
        { r.evacuate.1 with metrics := id r.metrics, calls := r.calls } :=
      passage_evacuate hr (.inr rfl) (fun q => by simp [Cause.reason?]) (fun s => by simp [owed])
    have hsame : { r.evacuate.1 with metrics := id r.metrics, calls := r.calls } =
        r.evacuate.1 := by
      rw [← hcalls, ← hmetrics]
      rfl
    rw [hsame] at hpassage
    have hnoted : Departs none r.evacuate.1 (r.evacuate.1.note (.dropped r.members.length)) :=
      .of_quiet ((Effect.refl r.evacuate.1).note rfl rfl)
    refine ⟨r.members.map (⟨·, .drop⟩) ++ [], hpassage.trans hnoted.passage_nil, ?_⟩
    intro d hd
    rw [List.append_nil] at hd
    obtain ⟨s, _, rfl⟩ := List.mem_map.mp hd
    rfl

theorem passage_apply (hr : Settled T r) (action : Action) :
    Passage (r.departuresAt action) r (r.apply action) := by
  apply Departs.passage
  cases action with
  | run t => exact departs_run hr t
  | tick i => exact departs_tick i
  | elapse ms => exact .of_quiet (.of_same (fun _ => rfl) (fun _ => rfl) rfl rfl rfl rfl)
  | subscribe request => exact departs_subscribe request
  | activate s => exact .of_quiet (effect_activate s)
  | publishLive b => exact .of_quiet effect_publishLive
  | publishHistorical b => exact departs_publishHistorical b
  | sendHistorical s b => exact departs_sendHistorical s b
  | unsubscribe s => exact departs_unsubscribe s
  | sweep => exact departs_sweep
  | ping => exact departs_ping
  | stop => exact departs_stop hr
  | drop => exact departs_drop hr
  | cancel token => exact .of_quiet (.of_same (fun _ => rfl) (fun _ => rfl) rfl rfl rfl rfl)
  | release s o => exact departs_release s o
  | receive s => exact departs_receive s
  | dropReceiver s => exact departs_dropReceiver s
  | awaitRemoval s => exact .addCall (.refl r) fun _ => rfl

/-- The accounts of a whole run. -/
theorem passage_run (hr : Settled (.any config hooks True) r) (actions : List Action) :
    Passage (r.departures actions) r (r.run actions) := by
  induction actions generalizing r with
  | nil => exact .refl r
  | cons action rest ih =>
    have hnext := (reaches_apply hr action.keeps_any).settled
    exact (passage_apply hr action).trans (ih hnext)

end Registry

end Multicast
