import Multicast.Proofs.Isolation.Within
import Multicast.Proofs.Registry.Run
import Multicast.Proofs.Schedule
import Multicast.Registry.Scenario

/-! The course of a scenario on a registry. Whatever state the scenario comes to is one to which a
run comes, so that all that is so in every run can be seen in every scenario. -/

namespace Multicast

namespace Registry

variable {r u v : Registry} {s : SessionId} {p : Party} {b : Batch Nat} {i limit : Nat}

/-! ### The clock -/

theorem now_settleCall {σ α : Type} (wrap : σ → Call) (answer : α → Call)
    (o : Registry × Progress σ α) : (settleCall i wrap answer o).now = o.1.now := by
  obtain ⟨u, progress⟩ := o
  cases progress <;> rfl

theorem now_nextBackfill (attempted : Nat) (ss : List SessionId) :
    (r.nextBackfill p b attempted ss).1.now = r.now := by
  induction ss with
  | nil => rfl
  | cons s rest ih =>
    have hask := (within_askGate (r := r) (t := s) (p := p)).now
    rw [nextBackfill]
    split
    · exact ih
    · split
      · next hgiven =>
        rw [hgiven] at hask
        exact hask
      · exact ih

theorem now_backfillStep (f : Backfill) : (r.backfillStep p f).1.now = r.now := by
  have hstep := (within_directStep (r := r) (p := p) f.current).now
  unfold backfillStep
  rcases hgoes : r.directStep p f.current with ⟨u, progress⟩
  rw [hgoes] at hstep
  cases progress with
  | running | crashed => exact hstep
  | done reached => exact (now_nextBackfill _ _).trans hstep

theorem now_sent (o : Registry × Progress Direct Bool) : (sent i o).now = o.1.now := by
  obtain ⟨u, progress⟩ := o
  cases progress <;> rfl

theorem now_unsubscribeProgress (o : Registry × Progress Farewell (Except HookError Unit)) :
    (unsubscribeProgress i s o).now = o.1.now := by
  obtain ⟨u, progress⟩ := o
  cases progress with
  | running | crashed => rfl
  | done result => cases result <;> rfl

theorem now_farewellProgress (o : Registry × Progress Farewell (Except HookError Unit)) :
    (farewellProgress i s o).now = o.1.now := by
  obtain ⟨u, progress⟩ := o
  cases progress with
  | running | crashed => rfl
  | done result => cases result <;> rfl

theorem now_subscribeStep (request : Subscription) (hook : HookRun) :
    (r.subscribeStep i request hook).now = r.now := by
  unfold subscribeStep
  split
  · rfl
  · rfl
  · rfl
  · split <;> rfl

/-! Sweeps. -/

theorem now_nextSweep (removed : Nat) (ss : List SessionId) :
    (r.nextSweep removed ss).1.now = r.now := by
  induction ss generalizing r with
  | nil =>
    show (if removed > 0 then r.note (.swept removed) else r).now = r.now
    split <;> rfl
  | cons s rest ih =>
    have hdetach := (within_detach (r := r) (t := s) .cancelled).now
    rw [nextSweep]
    split
    · next u hgone =>
      rw [hgone] at hdetach
      exact within_callAfter.now.trans hdetach
    · exact ih

theorem now_sweepStep (pass : SweepPass) : (r.sweepStep pass).1.now = r.now := by
  unfold sweepStep
  split
  · rfl
  · rfl
  · next result _ =>
    refine (now_nextSweep _ _).trans ?_
    cases result <;> rfl

theorem now_sweepLoopStep (l : Loop SweepPass) : (r.sweepLoopStep i l).now = r.now := by
  have hprogress (l : Loop SweepPass) (o : Registry × Progress SweepPass Nat) :
      (sweepLoopProgress i l o).now = o.1.now := by
    obtain ⟨u, progress⟩ := o
    cases progress <;> rfl
  unfold sweepLoopStep
  split
  · exact (hprogress _ _).trans (now_sweepStep _)
  · split
    · rfl
    · exact (hprogress _ _).trans (now_nextSweep 0 _)

/-! Pings. -/

theorem now_closePings (ps : List PingPoint) : (r.closePings ps).1.now = r.now := by
  unfold closePings
  split <;> rfl

theorem now_askPings (ss : List SessionId) : (r.askPings p ss).1.now = r.now := by
  induction ss generalizing r with
  | nil => rfl
  | cons s rest ih =>
    have hask := (within_askGate (r := r) (t := s) (p := p)).now
    rw [askPings]
    dsimp only
    split
    · next u hgiven =>
      rw [hgiven] at hask
      exact ih.trans hask
    · exact ih

theorem now_abandonPings (ps : List PingPoint) : (r.abandonPings p ps).now = r.now := by
  induction ps generalizing r with
  | nil => rfl
  | cons point rest ih =>
    cases point with
    | waiting d => exact ih
    | answered _ => exact ih

theorem now_stepPings (ps : List PingPoint) : (r.stepPings p ps).1.now = r.now := by
  induction ps with
  | nil => rfl
  | cons point rest ih =>
    cases point with
    | answered _ => exact ih
    | waiting d =>
      rw [stepPings]
      split
      · have hstep := (within_directStep (r := r) (p := p) d).now
        rcases hgoes : r.directStep p d with ⟨u, progress⟩
        rw [hgoes] at hstep
        cases progress with
        | running | done => exact hstep
        | crashed => exact (now_abandonPings rest).trans hstep
      · rcases hgoes : r.stepPings p rest with ⟨u, points⟩
        rw [hgoes] at ih
        cases points with
        | some _ => exact ih
        | none => exact ih

theorem now_pingStep (pass : PingPass) : (r.pingStep p pass).1.now = r.now := by
  have hstep := now_stepPings (r := r) (p := p) pass.pings
  unfold pingStep
  rcases hgoes : r.stepPings p pass.pings with ⟨u, points⟩
  rw [hgoes] at hstep
  cases points with
  | some ps => exact (now_closePings ps).trans hstep
  | none => exact hstep

theorem now_pingLoopStep (l : Loop PingPass) : (r.pingLoopStep i l).now = r.now := by
  have hprogress (l : Loop PingPass) (o : Registry × Progress PingPass Nat) :
      (pingLoopProgress i l o).now = o.1.now := by
    obtain ⟨u, progress⟩ := o
    cases progress <;> rfl
  unfold pingLoopStep
  split
  · exact (hprogress _ _).trans (now_pingStep _)
  · split
    · rfl
    · exact (hprogress _ _).trans ((now_closePings _).trans (now_askPings _))

/-! Every task. -/

theorem now_noteCrashes (is : List Nat) : (noteCrashes is r).now = r.now := by
  induction is generalizing r with
  | nil => rfl
  | cons i rest ih =>
    rw [noteCrashes]
    split <;> exact ih

theorem now_stopStep (point : StopPoint) : (r.stopStep i point).now = r.now := by
  unfold stopStep
  dsimp only
  split
  · exact now_noteCrashes _
  · split <;> exact now_noteCrashes _

theorem now_callStep (c : Call) : (r.callStep i c).now = r.now := by
  cases c with
  | subscribing request hook => exact now_subscribeStep request hook
  | backfilling f => exact (now_settleCall _ _ _).trans (now_backfillStep f)
  | sending d => exact (now_sent _).trans (within_directStep d).now
  | unsubscribing s f => exact (now_unsubscribeProgress _).trans (within_farewellStep f).now
  | farewell s f => exact (now_farewellProgress _).trans (within_farewellStep f).now
  | sweeping pass => exact (now_settleCall _ _ _).trans (now_sweepStep pass)
  | pinging pass => exact (now_settleCall _ _ _).trans (now_pingStep pass)
  | stopping point => exact now_stopStep point
  | sweepLoop l => exact now_sweepLoopStep l
  | pingLoop l => exact now_pingLoopStep l
  | awaitingRemoval | returned | crashed => rfl

theorem now_step (r : Registry) (t : Task) : (r.step t).now = r.now := by
  cases t with
  | worker s => exact within_workerStep.now
  | call i =>
    unfold step
    dsimp only
    split
    · exact now_callStep _
    · rfl

theorem timed_system : system.Timed where
  now_step := now_step
  now_atTime _ _ := rfl

/-! ### What a schedule does -/

theorem runsTo_of_comesTo (h : system.ComesTo limit r v) : RunsTo apply r v := by
  refine h.runsTo ?_ ?_
  · intro r t ready
    exact ⟨[.run t], (if_pos ready).symm⟩
  · intro r moment later
    have hnow : r.now + (moment - r.now) = moment := Nat.add_sub_of_le later
    exact ⟨[.elapse (moment - r.now)], congrArg (fun time => { r with now := time }) hnow.symm⟩

end Registry

namespace RegistryScenario

open Registry (apply)

variable {s : RegistryScenario} {st : RegistryStep} {name : String} {config : Config}
  {hooks : Hooks}

/-- The scenario after some steps. -/
def after (s : RegistryScenario) (steps : List RegistryStep) : RegistryScenario :=
  steps.foldl (fun s st => (s.step st).1) s

/-- A registry that nobody holds is dropped, which is an action like others. -/
theorem runsTo_settle (s : RegistryScenario) : RunsTo apply s.registry s.settle.registry := by
  have hsettle (t : Schedule Registry Task) :
      RunsTo apply t.state (t.settle Registry.system).state :=
    Registry.runsTo_of_comesTo (Schedule.comesTo_settle 0 t)
  have hdrop (s : RegistryScenario) : RunsTo apply s.registry s.dropIfUnheld.registry := by
    unfold dropIfUnheld
    split
    · exact .refl apply s.registry
    · exact .single apply s.registry .drop
  exact ((hsettle s.schedule).trans (hdrop { s with schedule := _ })).trans (hsettle _)

theorem runsTo_withSession {f : SessionId → RegistryScenario × StepAnswer}
    (h : ∀ id, RunsTo apply s.registry (f id).1.registry) :
    RunsTo apply s.registry (s.withSession name f).1.registry := by
  unfold withSession
  split
  · exact h _
  · exact .refl apply s.registry

theorem runsTo_ask (f : Session → StepAnswer) :
    RunsTo apply s.registry (s.ask name f).1.registry := by
  refine runsTo_withSession fun id => ?_
  split <;> exact .refl apply s.registry

theorem runsTo_publishAll (r : Registry) (batches : List (Batch Nat)) :
    RunsTo apply r (publishAll r batches).1 := by
  induction batches generalizing r with
  | nil => exact .refl apply r
  | cons b rest ih => exact (RunsTo.single apply r (.publishLive b)).trans (ih (r.publishLive b).1)

theorem runsTo_act (s : RegistryScenario) (st : RegistryStep) :
    RunsTo apply s.registry (s.act st).1.registry := by
  have hone (action : Action) : RunsTo apply s.registry (s.registry.apply action) :=
    .single apply s.registry action
  have hsame : RunsTo apply s.registry s.registry := .refl apply s.registry
  cases st with
  | subscribe name request => exact hone (.subscribe request)
  | activate name => exact runsTo_withSession fun id => hone (.activate id)
  | publishLive batches => exact runsTo_publishAll s.registry batches
  | publishHistorical b => exact hone (.publishHistorical b)
  | sendHistorical name b => exact runsTo_withSession fun id => hone (.sendHistorical id b)
  | unsubscribe name => exact runsTo_withSession fun id => hone (.unsubscribe id)
  | sweep => exact hone .sweep
  | ping => exact hone .ping
  | stop => exact hone .stop
  | awaitRemoval name => exact runsTo_withSession fun id => hone (.awaitRemoval id)
  | cancel token => exact hone (.cancel token)
  | release name o => exact runsTo_withSession fun id => hone (.release id o)
  | advance ms =>
    have hadvance := Schedule.comesTo_advance Registry.timed_system ms s.schedule
    exact Registry.runsTo_of_comesTo hadvance
  | receive name =>
    -- a step that finds nothing to receive changes nothing, as the action does
    refine runsTo_withSession fun id => ?_
    have hreceive := hone (.receive id)
    split
    · next hsome =>
      simp only [Registry.apply, hsome, Option.map_some, Option.getD_some] at hreceive
      exact hreceive
    · exact hsame
    · exact hsame
  | dropReceiver name => exact runsTo_withSession fun id => hone (.dropReceiver id)
  | accepts | info | describeInfo | describeSession | sinkClosed => exact runsTo_ask _
  | stats | list | config | metrics | describe | drop => exact hsame

theorem runsTo_step (s : RegistryScenario) (st : RegistryStep) :
    RunsTo apply s.registry (s.step st).1.registry := by
  have hacted : RunsTo apply s.registry (s.actIfHeld st).1.registry := by
    unfold actIfHeld
    split
    · exact runsTo_act s st
    · exact .refl apply s.registry
  exact hacted.trans (runsTo_settle _)

theorem runsTo_after (s : RegistryScenario) (steps : List RegistryStep) :
    RunsTo apply s.registry (s.after steps).registry := by
  induction steps generalizing s with
  | nil => exact .refl apply s.registry
  | cons st rest ih => exact (runsTo_step s st).trans (ih (s.step st).1)

/-! ### Every scenario -/

/-- A scenario is in a state to which a run comes. -/
theorem exists_run (config : Config) (hooks : Hooks) (steps : List RegistryStep) :
    ∃ actions, ((new config hooks).after steps).registry =
      (Registry.new config hooks).run actions :=
  (runsTo_settle _).trans (runsTo_after (new config hooks) steps)

/-- What a step shows of a subscriber is how the step leaves it. -/
theorem exists_view_of_mem_run {e : RegistryEntry} {steps : List RegistryStep}
    (he : e ∈ s.run steps) {v : SessionView} (hv : (name, v) ∈ e.sessions) :
    ∃ done id, viewOf (s.after done).registry id = some v := by
  induction steps generalizing s with
  | nil => cases he
  | cons st rest ih =>
    -- what remains of the first step, or of one that comes after it
    rcases List.mem_cons.mp he with rfl | he
    · obtain ⟨⟨_, id⟩, -, hshown⟩ := List.mem_filterMap.mp hv
      obtain ⟨w, hw, hsame⟩ := Option.map_eq_some_iff.mp hshown
      obtain rfl : w = v := congrArg Prod.snd hsame
      exact ⟨[st], id, hw⟩
    · obtain ⟨done, id, hdone⟩ := ih he
      exact ⟨st :: done, id, hdone⟩

/-- A subscriber that is shown to be removed is shown to have completed, with nothing pending. -/
theorem view_of_removed (config : Config) (hooks : Hooks) (steps : List RegistryStep)
    {e : RegistryEntry} (he : e ∈ (new config hooks).run steps) {v : SessionView}
    (hv : (name, v) ∈ e.sessions) (hs : v.stage = .removed) :
    v.completed = true ∧ v.pending = 0 := by
  obtain ⟨done, id, hview⟩ := exists_view_of_mem_run he hv
  obtain ⟨actions, hrun⟩ := exists_run config hooks done
  obtain ⟨x, hx, rfl⟩ := Option.map_eq_some_iff.mp hview
  have hsettled := Registry.settled_any_run config hooks actions
  have hlawful := hsettled.sound.lawful id x (hrun ▸ hx)
  have hempty := hlawful.emptied (hlawful.closed.mpr hs)
  exact ⟨hlawful.completed.mpr hs, Queue.size_of_empty hempty⟩

end RegistryScenario

end Multicast
