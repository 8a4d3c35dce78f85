import Multicast.Proofs.Queue.Closing
import Multicast.Proofs.Schedule
import Multicast.Queue.Scenario

/-! The course of a scenario on a queue. As long as the queue is held, whatever state the scenario
comes to is one to which a run comes, so that all that is so in every run can be seen in every
scenario. -/

namespace Multicast

namespace ScriptedQueue

variable {w v : ScriptedQueue} {limit : Nat}

/-! ### The clock -/

theorem now_enqueue (b : Batch Nat) : (w.enqueue b).1.now = w.now := by
  unfold enqueue
  split <;> rfl

theorem now_start : w.start.1.now = w.now := by
  unfold start
  split <;> rfl

theorem now_learnEnd : w.learnEnd.now = w.now := by
  unfold learnEnd
  split <;> rfl

theorem now_workerTurn : w.workerTurn.now = w.now := by
  unfold workerTurn
  split <;> rfl

theorem now_handlerAct (p : Party) (run : HandlerRun) (act : HandlerAct) (rest : List HandlerAct) :
    (w.handlerAct p run act rest).1.now = w.now := by
  unfold handlerAct
  cases act with
  | sleep | hold | crash => rfl
  | enqueue b =>
    dsimp only
    split
    · rfl
    · exact now_enqueue b
  | start =>
    dsimp only
    split
    · rfl
    · exact now_start
  | close =>
    dsimp only
    split <;> rfl
  | shutdown =>
    dsimp only
    split
    · rfl
    · split <;> rfl
  | deliver b kind =>
    dsimp only
    split
    · rfl
    · split <;> rfl

theorem now_handlerStep (p : Party) (run : HandlerRun) : (w.handlerStep p run).1.now = w.now := by
  unfold handlerStep
  cases run.wait with
  | workerEnd =>
    dsimp only
    split
    · exact now_learnEnd
    · exact (now_handlerAct p run _ _).trans now_learnEnd
  | nothing | moment | release | itself =>
    dsimp only
    split
    · rfl
    · exact now_handlerAct p run _ _

theorem now_workerStep : w.workerStep.now = w.now := by
  unfold workerStep
  split
  · exact now_workerTurn
  · split <;> rfl
  · next run _ =>
    have hstep := now_handlerStep (w := w) .worker run
    rcases hgoes : w.handlerStep .worker run with ⟨u, progress⟩
    rw [hgoes] at hstep
    cases progress with
    | running next => exact hstep
    | done note => exact now_workerTurn.trans hstep
    | crashed => exact hstep
  · split
    · rfl
    · exact now_workerTurn
  all_goals rfl

theorem now_callStep (i : Nat) : (w.callStep i).now = w.now := by
  unfold callStep
  dsimp only
  split
  · split <;> rfl
  · next run _ =>
    have hstep := now_handlerStep (w := w) (.call i) run
    rcases hgoes : w.handlerStep (.call i) run with ⟨u, progress⟩
    rw [hgoes] at hstep
    cases progress with
    | running next | done note | crashed => exact hstep
  · exact now_learnEnd
  · rfl

theorem timed_system : system.Timed where
  now_step w p := by
    cases p with
    | worker => exact now_workerStep
    | call i => exact now_callStep i
  now_atTime _ _ := rfl

/-! ### What a schedule does -/

theorem runsTo_of_comesTo (h : system.ComesTo limit w v) : RunsTo apply w v := by
  refine h.runsTo ?_ ?_
  · intro w p ready
    exact ⟨[.run p], (apply_run_of_ready ready).symm⟩
  · intro w moment later
    have hnow : w.now + (moment - w.now) = moment := Nat.add_sub_of_le later
    exact ⟨[.elapse (moment - w.now)], congrArg (fun time => { w with now := time }) hnow.symm⟩

/-- Batches that are enqueued in turn. -/
theorem runsTo_enqueueAll (batches : List (Batch Nat)) (w : ScriptedQueue) (oks : List Bool) :
    RunsTo apply w (batches.foldl
      (fun (w, oks) b => let (w', ok) := w.enqueue b; (w', oks ++ [ok])) (w, oks)).1 := by
  induction batches generalizing w oks with
  | nil => exact .refl apply w
  | cons b rest ih => exact (RunsTo.single apply w (.enqueue b)).trans (ih (w.enqueue b).1 _)

end ScriptedQueue

namespace QueueScenario

open ScriptedQueue (apply)

variable {s : QueueScenario} {st : QueueStep}

/-- The scenario after some steps. -/
def after (s : QueueScenario) (steps : List QueueStep) : QueueScenario :=
  steps.foldl (fun s st => (s.step st).1) s

theorem runsTo_settle (h : s.held = true) : RunsTo apply s.state s.settle.state := by
  have hsettle (t : Schedule ScriptedQueue Party) :
      RunsTo apply t.state (t.settle ScriptedQueue.system).state :=
    ScriptedQueue.runsTo_of_comesTo (Schedule.comesTo_settle 0 t)
  unfold settle shutIfUnheld
  simp only [h, Bool.true_or, if_true]
  exact (hsettle s.schedule).trans (hsettle _)

theorem held_settle : s.settle.held = s.held := by
  unfold settle shutIfUnheld
  dsimp only
  split <;> rfl

theorem runsTo_act (h : (s.act st).1.held = true) :
    s.held = true ∧ RunsTo apply s.state (s.act st).1.state := by
  cases st with
  | enqueue batches => exact ⟨h, ScriptedQueue.runsTo_enqueueAll batches s.state []⟩
  | start => exact ⟨h, .single apply s.state .start⟩
  | close => exact ⟨h, .single apply s.state .close⟩
  | shutdown => exact ⟨h, .single apply s.state .shutdown⟩
  | deliverNow b kind => exact ⟨h, .single apply s.state (.deliverNow b kind)⟩
  | release acts => exact ⟨h, .single apply s.state (.release acts)⟩
  | advance ms =>
    have hadvance := Schedule.comesTo_advance ScriptedQueue.timed_system ms s.schedule
    exact ⟨h, ScriptedQueue.runsTo_of_comesTo hadvance⟩
  | describe => exact ⟨h, .refl apply s.state⟩
  | drop => cases h

theorem runsTo_actIfHeld (h : (s.actIfHeld st).1.held = true) :
    s.held = true ∧ RunsTo apply s.state (s.actIfHeld st).1.state := by
  unfold actIfHeld at h ⊢
  split at h
  · next hlost =>
    have hheld : s.held = true := by split at h <;> exact h
    rw [hheld] at hlost
    cases hlost
  · next hkept =>
    rw [if_neg hkept]
    exact runsTo_act h

/-- A step of a queue that is still held after it is made of actions. -/
theorem runsTo_step (h : (s.step st).1.held = true) :
    s.held = true ∧ RunsTo apply s.state (s.step st).1.state := by
  have hacted : (s.actIfHeld st).1.held = true := held_settle.symm.trans h
  obtain ⟨hheld, hruns⟩ := runsTo_actIfHeld hacted
  exact ⟨hheld, hruns.trans (runsTo_settle hacted)⟩

theorem runsTo_after (steps : List QueueStep) (h : (s.after steps).held = true) :
    s.held = true ∧ RunsTo apply s.state (s.after steps).state := by
  induction steps generalizing s with
  | nil => exact ⟨h, .refl apply s.state⟩
  | cons st rest ih =>
    obtain ⟨hheld, hrest⟩ := ih h
    obtain ⟨hbefore, hstep⟩ := runsTo_step hheld
    exact ⟨hbefore, hstep.trans hrest⟩

/-! ### Every scenario -/

/-- As long as the queue is held, a scenario is in a state to which a run comes. -/
theorem exists_run_of_held (n : Nat) (script : List (List HandlerAct)) (steps : List QueueStep)
    (h : ((new n script).after steps).held = true) :
    ∃ actions, ((new n script).after steps).state = (ScriptedQueue.new n script).run actions :=
  (runsTo_after steps h).2

/-- What a step shows of the queue is how the step leaves it. -/
theorem exists_view_of_mem_run {e : QueueEntry} {steps : List QueueStep} (he : e ∈ s.run steps) :
    ∃ done, e.view = (s.after done).view := by
  induction steps generalizing s with
  | nil => cases he
  | cons st rest ih =>
    rcases List.mem_cons.mp he with rfl | he
    · exact ⟨[st], rfl⟩
    · obtain ⟨done, hdone⟩ := ih he
      exact ⟨st :: done, hdone⟩

/-- A queue that is shown to be closed is shown to be empty. -/
theorem view_of_closed (n : Nat) (script : List (List HandlerAct)) (steps : List QueueStep)
    {e : QueueEntry} (he : e ∈ (new n script).run steps) {v : QueueView} (hv : e.view = some v)
    (hc : v.closed = true) : v.size = 0 ∧ v.isEmpty = true := by
  obtain ⟨done, hview⟩ := exists_view_of_mem_run he
  obtain ⟨hheld, hshown⟩ := Option.ite_none_right_eq_some.mp (hview.symm.trans hv)
  obtain rfl := Option.some.inj hshown
  obtain ⟨actions, hrun⟩ := exists_run_of_held n script done hheld
  have hheap := ScriptedQueue.roomless_run n script actions (hrun ▸ hc)
  rw [hrun, Queue.size, hheap]
  exact ⟨rfl, rfl⟩

end QueueScenario

end Multicast
