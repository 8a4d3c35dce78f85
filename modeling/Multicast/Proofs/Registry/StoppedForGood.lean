import Multicast.Proofs.Registry.RemovedForGood

/-! A stop is for good. The call that stops a registry empties it at once; nobody is registered
after it, however long the callback before a registration has been running, and whatever is called
afterwards finds nobody to deal with. -/

namespace Multicast

namespace HookPlan

/-- What a callback comes to in the end. A crash leaves no result. -/
def outcome? : HookPlan → Option (Except HookError Unit)
  | .succeed => some (.ok ())
  | .fail e => some (.error e)
  | .crash => none
  | .delay _ next => next.outcome?

/-- Where a registration ends whose callback comes back to a registry that has stopped. -/
def turnedAway (plan : HookPlan) : Call :=
  match plan.outcome? with
  | some (.ok ()) => .returned (.error .stopped)
  | some (.error e) => .returned (.error (.hook e))
  | none => .crashed

end HookPlan

namespace Registry

variable {T : Terms} {r : Registry} {s : SessionId} {x : Session} {i n : Nat} {config : Config}
  {hooks : Hooks} {request : Subscription} {hook : HookRun} {actions : List Action}

/-! ### A registry that has been shut -/

/-- A registry that was stopped when it had brought in `n` subscribers. -/
structure Shut (n : Nat) (r : Registry) : Prop where
  stopped : r.stopped = true
  members : r.members = []
  gauge : r.metrics.sessions = some 0
  length : r.sessions.length = n

/-- Nobody is registered just if everybody is removed. -/
theorem members_eq_nil_iff (hr : Settled T r) : r.members = [] ↔ r.AllGone := by
  rw [List.eq_nil_iff_forall_not_mem]
  constructor
  · intro h s hs
    obtain ⟨x, hx⟩ : ∃ x, r.session? s = some x := ⟨_, List.getElem?_eq_getElem hs⟩
    rw [isGone_of_session? hx]
    by_contra hstage
    exact h s ((hr.sound.mem_iff s).mpr ⟨x, hx, hstage⟩)
  · intro h s hs
    obtain ⟨x, hx, hstage⟩ := (hr.sound.mem_iff s).mp hs
    have hlt : s < r.sessions.length := (List.getElem?_eq_some_iff.mp hx).1
    exact hstage ((isGone_of_session? hx).mp (h s hlt))

theorem shut_stop (hr : Settled T r) (hopen : r.stopped = false) :
    Shut r.sessions.length r.stop := by
  obtain ⟨es, -, hevacuate⟩ := evacuate_eq hr.sound
  have hstop : r.stop.stopped = true ∧ r.stop.members = [] ∧
      r.stop.metrics.sessions = some 0 ∧ r.stop.sessions.length = r.sessions.length := by
    unfold stop
    rw [hopen, hevacuate]
    refine ⟨rfl, rfl, rfl, ?_⟩
    exact List.length_mapIdx
  exact ⟨hstop.1, hstop.2.1, hstop.2.2.1, hstop.2.2.2⟩

/-- The gauge is not unset again, unless the registry is dropped. -/
theorem isSome_gauge_shift {a b : Posted} (hd : ¬ T.mayDrop) (h : Shift T a b)
    (ha : a.registry.metrics.sessions.isSome) : b.registry.metrics.sessions.isSome := by
  cases h with
  | turn t =>
    cases t with
    | note | lane => exact ha
    | @count r P f hf => exact (hf r.metrics).1 ▸ ha
    | detach reason hx hr ht =>
      obtain ⟨es, _, hdetach⟩ := detach_eq hx hr reason
      rw [hdetach]
      rfl
  | beside | lane => exact ha
  | enrol => rfl
  | evacuate es he f hf =>
    obtain rfl := hf.resolve_left hd
    rfl

theorem isSome_gauge_shifts {a b : Posted} (hd : ¬ T.mayDrop) (h : Shifts T a b)
    (ha : a.registry.metrics.sessions.isSome) : b.registry.metrics.sessions.isSome := by
  induction h with
  | refl => exact ha
  | tail _ hstep ih => exact isSome_gauge_shift hd hstep ih

/-- A drop does nothing to a registry that is stopped, so that none need be reckoned with. -/
theorem reaches_of_stopped (hr : Settled (.any config hooks False) r) (hs : r.stopped = true)
    (action : Action) : Reaches (.any config hooks False) r (r.apply action) := by
  by_cases hdrop : action = .drop
  · subst hdrop
    have hsame : r.apply .drop = r := by simp only [apply, drop, hs, if_true]
    rw [hsame]
    exact .refl hr
  · exact reaches_apply hr ⟨fun _ _ => trivial, fun h => absurd h hdrop, trivial⟩

/-- A registry that was shut is so after every action. -/
theorem shut_apply (hr : Settled (.any config hooks False) r) (hroll : Roll r) (h : Shut n r)
    (action : Action) : Roll (r.apply action) ∧ Shut n (r.apply action) := by
  have hreaches := reaches_of_stopped hr h.stopped action
  have hpassage := passage_apply hr action
  obtain ⟨hstopped, hlength⟩ := hpassage.closed h.stopped
  have hnext : Roll (r.apply action) := hroll.shifts hr.sound not_false hreaches.shifts
  -- nobody was left, and nobody can have come in
  have hmembers : (r.apply action).members = [] := by
    have hall : r.AllGone := (members_eq_nil_iff hr).mp h.members
    exact (members_eq_nil_iff hreaches.settled).mpr (hpassage.emptied (fun _ => hall) hstopped)
  have hset : (r.apply action).metrics.sessions.isSome :=
    isSome_gauge_shifts not_false hreaches.shifts (by rw [h.gauge]; rfl)
  obtain ⟨k, hk⟩ := Option.isSome_iff_exists.mp hset
  have hzero : k = 0 := by
    have hcount := hnext.gauge k hk
    rwa [hmembers] at hcount
  exact ⟨hnext, hstopped, hmembers, by rw [hk, hzero], hlength.trans h.length⟩

theorem shut_run (hr : Settled (.any config hooks False) r) (hroll : Roll r) (h : Shut n r)
    (actions : List Action) : Settled (.any config hooks False) (r.run actions) ∧
      Shut n (r.run actions) := by
  induction actions generalizing r with
  | nil => exact ⟨hr, h⟩
  | cons action rest ih =>
    obtain ⟨hroll', h'⟩ := shut_apply hr hroll h action
    exact ih (reaches_of_stopped hr h.stopped action).settled hroll' h'

/-- Everybody who was brought in is removed, told so, and has a closed and empty queue. -/
theorem removed_of_shut (hr : Settled T r) (h : Shut n r) (hs : s < n) :
    ∃ x, r.session? s = some x ∧ x.stage = .removed ∧ x.completed = true ∧
      x.queue.closed = true ∧ x.queue.size = 0 := by
  have hlt : s < r.sessions.length := h.length.symm ▸ hs
  obtain ⟨x, hx⟩ : ∃ x, r.session? s = some x := ⟨_, List.getElem?_eq_getElem hlt⟩
  have hgone : x.stage = .removed :=
    (isGone_of_session? hx).mp ((members_eq_nil_iff hr).mp h.members s hlt)
  have hlawful := hr.sound.lawful s x hx
  have hclosed : x.queue.closed = true := hlawful.closed.mpr hgone
  have hempty : x.queue.heap.contents = 0 := hlawful.emptied hclosed
  exact ⟨x, hx, hgone, hlawful.completed.mpr hgone, hclosed, Queue.size_of_empty hempty⟩

/-! ### Calls that find nobody -/

theorem publishLive_of_shut (h : Shut n r) {b : Batch Nat} (hb : b.size = 1) :
    r.publishLive b = (r.count (·.batchPublished .live 0), .ok 0) := by
  rw [publishLive, if_pos hb, h.members]
  rfl

theorem publishHistorical_of_shut (h : Shut n r) (b : Batch Nat) : r.publishHistorical b =
    (r.count (·.batchPublished .historical 0)).addCall (returnedCount 0) := by
  have hnobody : (r.addCall .crashed).members = [] := h.members
  rw [publishHistorical, startCall, hnobody]
  exact setCall_addCall (r.count (·.batchPublished .historical 0)) .crashed (returnedCount 0)

theorem ping_of_shut (h : Shut n r) :
    r.ping = (r.count (·.pingPass 0)).addCall (returnedCount 0) := by
  have hnobody : (r.addCall .crashed).members = [] := h.members
  rw [ping, startCall, beginPings, hnobody]
  exact setCall_addCall (r.count (·.pingPass 0)) .crashed (returnedCount 0)

theorem sweep_of_shut (h : Shut n r) : r.sweep = r.addCall (returnedCount 0) := by
  have hnobody : (r.addCall .crashed).members = [] := h.members
  rw [sweep, startCall, beginSweep, hnobody]
  exact setCall_addCall r .crashed (returnedCount 0)

theorem subscribe_of_stopped (hs : r.stopped = true) (request : Subscription) :
    r.subscribe request = r.addCall (.returned (.error .stopped)) := by
  rw [subscribe, if_pos hs]

theorem stop_of_stopped (hs : r.stopped = true) :
    r.stop = r.addCall (.returned (.ok .nothing)) := by
  rw [stop, if_pos hs]

/-! ### Registrations under way -/

/-- A registration that goes on in a stopped registry changes nothing but where it stands itself: it
waits for what is left of its callback, or ends as one that is turned away. -/
theorem subscribeStep_of_stopped (hs : r.stopped = true) (i : Nat) (request : Subscription)
    (hook : HookRun) : ∃ c, r.subscribeStep i request hook = r.setCall i c ∧
      (c = hook.plan.turnedAway ∨ ∃ ms next, hook.plan = .delay ms next ∧
        c = .subscribing request ⟨r.now + ms, next⟩) := by
  unfold subscribeStep HookRun.step
  cases hook.plan with
  | succeed =>
    refine ⟨.returned (.error .stopped), ?_, .inl rfl⟩
    simp only [hs, if_true]
  | fail e => exact ⟨_, rfl, .inl rfl⟩
  | crash => exact ⟨_, rfl, .inl rfl⟩
  | delay ms next => exact ⟨_, rfl, .inr ⟨ms, next, rfl, rfl⟩⟩

theorem apply_of_subscribing (hc : r.calls[i]? = some (.subscribing request hook))
    (hready : hook.ready r.now = true) :
    r.apply (.run (.call i)) = r.subscribeStep i request hook := by
  simp only [apply, ready, step, hc, callReady, hready, if_true, callStep]

theorem isOver_turnedAway (plan : HookPlan) : plan.turnedAway.isOver = true := by
  unfold HookPlan.turnedAway
  split
  · rfl
  · rfl
  · rfl

/-- Where a registration stands that was under way when the registry stopped: at what is left of its
callback, or at its end. -/
def Lingers (plan : HookPlan) (i : Nat) (request : Subscription) (r : Registry) : Prop :=
  (∃ hook : HookRun, hook.plan.outcome? = plan.outcome? ∧
    r.calls[i]? = some (.subscribing request hook)) ∨ r.calls[i]? = some plan.turnedAway

/-- Whoever lingers changes nothing but itself when it goes on. -/
theorem Lingers.alone {plan : HookPlan} (h : Lingers plan i request r) (hs : r.stopped = true) :
    ∃ c, r.apply (.run (.call i)) = r.setCall i c := by
  have hidle {c : Call} (hc : r.calls[i]? = some c) (hready : r.callReady i c = false) :
      r.apply (.run (.call i)) = r.setCall i c := by
    obtain ⟨hlt, hget⟩ := List.getElem?_eq_some_iff.mp hc
    have hsame : r.calls.set i c = r.calls := by
      rw [← hget, List.set_getElem_self]
    simp only [apply, ready, hc, hready, Bool.false_eq_true, if_false, setCall, hsame]
  rcases h with ⟨hook, -, hc⟩ | hc
  · cases hready : hook.ready r.now with
    | false => exact ⟨_, hidle hc hready⟩
    | true =>
      obtain ⟨c, hstep, -⟩ := subscribeStep_of_stopped hs i request hook
      exact ⟨c, (apply_of_subscribing hc hready).trans hstep⟩
  · refine ⟨_, hidle hc ?_⟩
    have hover := isOver_turnedAway plan
    cases hcall : plan.turnedAway with
    | returned | crashed => rfl
    | _ =>
      rw [hcall] at hover
      cases hover

theorem turnedAway_congr {plan plan' : HookPlan} (h : plan.outcome? = plan'.outcome?) :
    plan.turnedAway = plan'.turnedAway := by
  unfold HookPlan.turnedAway
  rw [h]

theorem lingers_apply (hr : Settled T r) (hs : r.stopped = true) {plan : HookPlan}
    (h : Lingers plan i request r) (action : Action) : Lingers plan i request (r.apply action) := by
  rcases h with ⟨hook, houtcome, hc⟩ | hc
  · have hlt : i < r.calls.length := (List.getElem?_eq_some_iff.mp hc).1
    by_cases ha : action = .run (.call i)
    · subst ha
      by_cases hready : hook.ready r.now = true
      · rw [apply_of_subscribing hc hready]
        obtain ⟨c, hstep, hcase⟩ := subscribeStep_of_stopped hs i request hook
        have hnow : (r.subscribeStep i request hook).calls[i]? = some c := by
          rw [hstep]
          exact List.getElem?_set_self hlt
        rcases hcase with rfl | ⟨ms, next, hplan, rfl⟩
        · exact .inr (hnow.trans (congrArg some (turnedAway_congr houtcome)))
        · refine .inl ⟨_, ?_, hnow⟩
          rw [← houtcome, hplan]
          rfl
      · have hsame : r.apply (.run (.call i)) = r := by
          simp only [apply, ready, hc, callReady, hready, Bool.false_eq_true, if_false]
        rw [hsame]
        exact .inl ⟨hook, houtcome, hc⟩
    · exact .inl ⟨hook, houtcome, call_stays hr hc id ha⟩
  · exact .inr (over_apply hr hc (isOver_turnedAway plan) action)

theorem lingers_run (hr : Settled (.any config hooks True) r) (hs : r.stopped = true)
    {plan : HookPlan} (h : Lingers plan i request r) (actions : List Action) :
    Lingers plan i request (r.run actions) := by
  induction actions generalizing r with
  | nil => exact h
  | cons action rest ih =>
    have hreaches := reaches_apply hr action.keeps_any
    have hstopped := ((passage_apply hr action).closed hs).1
    exact ih hreaches.settled hstopped (lingers_apply hr hs h action)

/-- A schedule that does nothing but let time pass and let one call go on. -/
def OnlyRuns (i : Nat) (actions : List Action) : Prop :=
  ∀ action ∈ actions, action = .run (.call i) ∨ ∃ ms, action = .elapse ms

theorem stopped_run (hr : Settled (.any config hooks True) r) (hs : r.stopped = true)
    (actions : List Action) : (r.run actions).stopped = true :=
  ((passage_run hr actions).closed hs).1

theorem onlyRuns_pair (i moment : Nat) : OnlyRuns i [.elapse moment, .run (.call i)] := by
  intro action hmem
  rcases List.mem_pair.mp hmem with rfl | rfl
  · exact .inr ⟨moment, rfl⟩
  · exact .inl rfl

/-- When its time has come the callback of a registration under way takes one step. -/
theorem subscribing_goes_on (hs : r.stopped = true)
    (hc : r.calls[i]? = some (.subscribing request hook)) :
    let u := r.run [.elapse hook.moment, .run (.call i)]
    u.stopped = true ∧ ∃ c, u.calls[i]? = some c ∧ (c = hook.plan.turnedAway ∨
      ∃ ms next moment, hook.plan = .delay ms next ∧ c = .subscribing request ⟨moment, next⟩) := by
  intro u
  have hlt : i < r.calls.length := (List.getElem?_eq_some_iff.mp hc).1
  have hready : hook.ready (r.now + hook.moment) = true :=
    decide_eq_true (Nat.le_add_left hook.moment r.now)
  obtain ⟨c, hstep, hcase⟩ := subscribeStep_of_stopped (r := { r with now := r.now + hook.moment })
    hs i request hook
  have hu : u = Registry.setCall { r with now := r.now + hook.moment } i c :=
    (apply_of_subscribing (r := { r with now := r.now + hook.moment }) hc hready).trans hstep
  rw [hu]
  refine ⟨hs, c, List.getElem?_set_self hlt, ?_⟩
  rcases hcase with hend | ⟨ms, next, hplan, hnext⟩
  · exact .inl hend
  · exact .inr ⟨ms, next, _, hplan, hnext⟩

/-- A registration under way in a stopped registry comes to its end when its callback does. -/
theorem exists_turnedAway (hs : r.stopped = true)
    (hc : r.calls[i]? = some (.subscribing request hook)) :
    ∃ more, OnlyRuns i more ∧ (r.run more).calls[i]? = some hook.plan.turnedAway := by
  obtain ⟨moment, plan⟩ := hook
  -- by induction on the plan, which gets shorter with each step of the callback
  induction plan generalizing r moment with
  | delay ms next ih =>
    obtain ⟨hstopped, c, hcall, rfl | ⟨_, _, moment', hplan, rfl⟩⟩ := subscribing_goes_on hs hc
    · exact ⟨_, onlyRuns_pair i moment, hcall⟩
    · cases hplan
      obtain ⟨more, hmore, hend⟩ := ih hstopped moment' hcall
      refine ⟨[.elapse moment, .run (.call i)] ++ more, ?_, ?_⟩
      · intro action hmem
        rcases List.mem_append.mp hmem with hmem | hmem
        · exact onlyRuns_pair i moment action hmem
        · exact hmore action hmem
      · rw [run_append]
        exact hend
  | _ =>
    obtain ⟨-, c, hcall, rfl | ⟨_, _, _, hplan, _⟩⟩ := subscribing_goes_on hs hc
    · exact ⟨_, onlyRuns_pair i moment, hcall⟩
    · cases hplan

/-! ### Every run -/

/-- A registry that was not stopped in the end was never dropped. -/
theorem drop_not_mem_of_open (h : ((new config hooks).run actions).stopped = false) :
    .drop ∉ actions := by
  intro hmem
  obtain ⟨before, after, rfl⟩ := List.append_of_mem hmem
  have hbefore : Settled (.any config hooks True) ((new config hooks).run before) :=
    settled_run rfl rfl fun action _ => action.keeps_any
  have hdropped : (((new config hooks).run before).apply .drop).stopped = true := by
    show ((new config hooks).run before).drop.stopped = true
    unfold drop
    split
    · rename_i hs
      exact hs
    · obtain ⟨es, -, hevacuate⟩ := evacuate_eq hbefore.sound
      rw [hevacuate]
      rfl
  have hnext := (reaches_apply hbefore Action.drop.keeps_any).settled
  have hend := stopped_run hnext hdropped after
  rw [run_append] at h
  exact Bool.false_ne_true (h.symm.trans hend)

/-- Everybody whose callback after the removal was called has been registered. -/
theorem registered_of_hookCalls (config : Config) (hooks : Hooks) (actions : List Action) :
    let r := (new config hooks).run actions
    ∀ s ∈ r.hookCalls, s < r.sessions.length := by
  intro r s hs
  obtain ⟨e, he, hwho⟩ := List.mem_filterMap.mp hs
  cases e with
  | afterRemoved who stage writes position =>
    obtain rfl := Option.some.inj hwho
    obtain ⟨later, earlier, hsplit⟩ := List.append_of_mem he
    obtain ⟨-, hgone, -⟩ := callback_of_run config hooks actions hsplit
    obtain ⟨x, hx, -⟩ := isGone_iff.mp hgone
    exact (List.getElem?_eq_some_iff.mp hx).1
  | _ => cases hwho

/-- A stop is for good. In every run, when a registry that is not stopped is called to stop, the
call empties it before it waits for anything: nobody is registered, the gauge is zero, and everybody
who was in the set is removed, told so, and has a closed queue with nothing pending. So it stays
whatever follows. A live batch is routed to nobody, and calls to publish, ping, sweep and stop that
are made afterwards add themselves and a count of nobody, and nothing else. A registration whose
callback was running ends as turned away, or as its callback ends if that fails; until then it stays
under way and can come to its end; it changes nothing but itself, so that nobody comes in and no
callback is called but of those who were registered before the stop. -/
theorem stopped_for_good (config : Config) (hooks : Hooks) (before : List Action)
    (hopen : ((new config hooks).run before).stopped = false) :
    let r := (new config hooks).run before
    ∀ more, let w := (r.apply .stop).run more
      w.stopped = true ∧ w.members = [] ∧ w.metrics.sessions = some 0 ∧
        w.sessions.length = r.sessions.length ∧
        (∀ s ∈ r.members, ∃ x, w.session? s = some x ∧ x.stage = .removed ∧ x.completed = true ∧
          x.queue.closed = true ∧ x.queue.size = 0) ∧
        (∀ b, b.size = 1 →
          w.publishLive b = (w.count (·.batchPublished .live 0), .ok 0)) ∧
        (∀ b, w.publishHistorical b =
          (w.count (·.batchPublished .historical 0)).addCall (returnedCount 0)) ∧
        w.ping = (w.count (·.pingPass 0)).addCall (returnedCount 0) ∧
        w.sweep = w.addCall (returnedCount 0) ∧
        w.stop = w.addCall (.returned (.ok .nothing)) ∧
        (∀ request, w.subscribe request = w.addCall (.returned (.error .stopped))) ∧
        (∀ s ∈ w.hookCalls, s < r.sessions.length) ∧
        ∀ (i : Nat) request (hook : HookRun),
          r.calls[i]? = some (Call.subscribing request hook) →
          (∃ c, w.apply (.run (.call i)) = w.setCall i c) ∧
            ((w.calls[i]? : Option Call) = some hook.plan.turnedAway ∨
              (∃ hook' : HookRun, hook'.plan.outcome? = hook.plan.outcome? ∧
                w.calls[i]? = some (Call.subscribing request hook')) ∧
              ∃ rest, OnlyRuns i rest ∧
                ((w.run rest).calls[i]? : Option Call) = some hook.plan.turnedAway) := by
  intro r more w
  have hdrop : .drop ∉ before := drop_not_mem_of_open hopen
  have hkeeps : ∀ action ∈ before, action.Keeps (.any config hooks False) := by
    intro action hmem
    exact ⟨fun _ _ => trivial, fun h => absurd (h ▸ hmem) hdrop, trivial⟩
  have hr : Settled (.any config hooks False) r := settled_run rfl rfl hkeeps
  have hstop : Reaches (.any config hooks False) r (r.apply .stop) :=
    reaches_apply hr ⟨fun _ _ => trivial, nofun, trivial⟩
  have hroll : Roll (r.apply .stop) :=
    (roll_run hdrop).shifts hr.sound not_false hstop.shifts
  obtain ⟨hw, hshut⟩ := shut_run hstop.settled hroll (shut_stop hr hopen) more
  have hfull : Settled (.any config hooks True) (r.apply .stop) :=
    (reaches_apply (settled_run rfl rfl fun action _ => action.keeps_any)
      Action.stop.keeps_any).settled
  refine ⟨hshut.stopped, hshut.members, hshut.gauge, hshut.length, ?_, ?_, ?_, ?_, ?_, ?_, ?_, ?_,
    ?_⟩
  · intro s hs
    obtain ⟨x, hx, -⟩ := (hr.sound.mem_iff s).mp hs
    exact removed_of_shut hw hshut (List.getElem?_eq_some_iff.mp hx).1
  · exact fun b hb => publishLive_of_shut hshut hb
  · exact publishHistorical_of_shut hshut
  · exact ping_of_shut hshut
  · exact sweep_of_shut hshut
  · exact stop_of_stopped hshut.stopped
  · exact subscribe_of_stopped hshut.stopped
  · intro s hs
    have hrun : w = (new config hooks).run (before ++ .stop :: more) :=
      (run_append _ before (.stop :: more)).symm
    rw [hrun] at hs
    have hlt := registered_of_hookCalls config hooks _ s hs
    rw [← hrun, hshut.length] at hlt
    exact hlt
  · intro i request hook hc
    -- the stop itself adds calls at the end only
    have hsame : (r.apply .stop).calls[i]? = some (.subscribing request hook) :=
      call_stays hr hc id nofun
    have hlingers := lingers_run hfull (stopped_stop hr) (.inl ⟨hook, rfl, hsame⟩) more
    refine ⟨hlingers.alone hshut.stopped, ?_⟩
    rcases hlingers with ⟨hook', houtcome, hc'⟩ | hend
    · obtain ⟨rest, hrest, hend⟩ := exists_turnedAway hshut.stopped hc'
      rw [turnedAway_congr houtcome] at hend
      exact .inr ⟨⟨hook', houtcome, hc'⟩, rest, hrest, hend⟩
    · exact .inl hend

/-- One subscriber is registered and the callback before another runs, when the registry stops. -/
theorem stopped_for_good_of_late_registration :
    let hooks : Hooks := { before := fun request =>
      if request.peer = "late" then .delay 5 .succeed else .succeed }
    let r := (new {} hooks).run [.subscribe {}, .run (.call 1), .subscribe { peer := "late" }]
    r.stopped = false ∧ r.members = [0] ∧ ∀ more,
      ((r.apply .stop).run more).members = [] ∧ ((r.apply .stop).run more).sessions.length = 1 ∧
        ∃ rest, ((r.apply .stop).run (more ++ rest)).calls[2]? =
          some (.returned (.error .stopped)) := by
  intro hooks r
  have hopen : r.stopped = false := by decide
  have hone : r.sessions.length = 1 := by decide
  have hcall : r.calls[2]? = some (.subscribing { peer := "late" } ⟨0, .delay 5 .succeed⟩) := rfl
  refine ⟨hopen, by decide, ?_⟩
  intro more
  obtain ⟨-, hmembers, -, hlength, -, -, -, -, -, -, -, -, hlate⟩ :=
    stopped_for_good {} hooks _ hopen more
  refine ⟨hmembers, hlength.trans hone, ?_⟩
  rcases (hlate 2 _ _ hcall).2 with hend | ⟨-, rest, -, hend⟩
  · exact ⟨[], by rw [List.append_nil]; exact hend⟩
  · exact ⟨rest, by rw [run_append]; exact hend⟩

end Registry

end Multicast
