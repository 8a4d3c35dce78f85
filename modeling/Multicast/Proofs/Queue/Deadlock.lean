import Mathlib.Data.List.Induction
import Multicast.Proofs.Queue.Handling

/-! A queue that waits for itself. A direct delivery holds the gate while its handler is at work. If
the handler waits for the end of the worker, and the worker stands in line for the gate, neither of
them ever goes on. It comes to this just where the handler calls for a shutdown, as the first who
does, while the worker is in line already. -/

namespace Multicast

namespace Scene

variable {a b : Scene} {asked : Batch Nat → DeliveryKind → Prop} {takes : Prop}

/-- Nobody goes to stand in line when the queue has closed. -/
theorem Turn.inLine_of_closed (t : Turn asked takes a b) (hc : a.queue.closed = true)
    (hb : b.places .worker = .inLine) : a.places .worker = .inLine := by
  cases t with
  | tell | join | accept | close => exact hb
  | start | appear | wake | stop | take | findNothing | sleep => simp at hb
  | standInLine hp ho => cases ho.symm.trans hc
  | handBack place hp hplace =>
    rcases hplace with rfl | rfl <;> simp at hb
  | @ask q P _ i batch kind => exact (worker_of_update_call P i (.asking batch kind)).symm.trans hb
  | @serve q P _ i => exact (worker_of_update_call P i .busy).symm.trans hb
  | @depart q P _ i => exact (worker_of_update_call P i .away).symm.trans hb

theorem Turns.inLine_of_closed (t : Turns asked takes a b) (hc : a.queue.closed = true)
    (hb : b.places .worker = .inLine) : a.places .worker = .inLine := by
  induction t with
  | refl => exact hb
  | tail t t' ih => exact ih (t'.inLine_of_closed (Turns.winds t hc).closed hb)

end Scene

namespace ScriptedQueue

variable {w v : ScriptedQueue} {p : Party} {run : HandlerRun} {a : QueueAction}

theorem worker_inLine_of_closed (hl : w.scene.Lawful) (hc : w.queue.closed = true)
    (hw : (w.apply a).worker = .inLine) : w.worker = .inLine := by
  have hbefore : w.place .worker = .inLine :=
    (turns_apply_any hl a).inLine_of_closed hc (place_worker_eq_inLine.mpr hw)
  exact place_worker_eq_inLine.mp hbefore

/-- The worker waits for the gate; `p` holds it, and waits for the end of the worker in its handler,
where it has called for a shutdown. -/
structure Deadlocked (w : ScriptedQueue) (p : Party) : Prop where
  worker : w.worker = .inLine
  holds : w.queue.gate.holds p = true
  waits : ∃ run, w.delivery? p = some run ∧ run.wait = .workerEnd

/-- A worker in line makes no delivery of its own. -/
theorem Deadlocked.ne_worker (h : w.Deadlocked p) : p ≠ .worker := by
  rintro rfl
  obtain ⟨run, hd, -⟩ := h.waits
  cases h.worker.symm.trans (delivery?_worker.mp hd)

/-- Nobody can go on: the handler waits for the worker, and everybody else for the handler or for
the worker. -/
theorem Deadlocked.stuck (h : w.Deadlocked p) (ho : w.scene.Orderly) (q : Party) :
    w.ready q = false := by
  obtain ⟨run, hd, hwait⟩ := h.waits
  have hover : w.worker.isOver = false := by simp [h.worker, WorkerPoint.isOver]
  have hhead {q : Party} (hne : p ≠ q) : w.queue.gate.holds q = false := by
    rw [Bool.eq_false_iff]
    intro hq
    exact hne (Option.some.inj ((Gate.holds_iff.mp h.holds).symm.trans (Gate.holds_iff.mp hq)))
  cases q with
  | worker => simp only [ready, Queue.workerReady, h.worker, hhead h.ne_worker]
  | call i =>
    cases hcall : w.calls[i]? with
    | none => simp only [ready, hcall]
    | some c =>
      cases c with
      | inLine b kind =>
        have hne : p ≠ .call i := by
          rintro rfl
          cases hcall.symm.trans (delivery?_call.mp hd)
        simp only [ready, hcall, hhead hne]
      | delivering other =>
        obtain rfl := delivery_unique ho hd (delivery?_call.mpr hcall)
        rw [ready_of_delivery hd]
        simp only [handlerReady, hwait, hover]
      | joining => simp only [ready, hcall, hover]
      | returned | crashed => simp only [ready, hcall]

/-- Whatever happens, the two go on to wait for each other. -/
theorem Deadlocked.apply (h : w.Deadlocked p) (hr : w.Regular) (a : QueueAction) :
    (w.apply a).Deadlocked p := by
  obtain ⟨run, hd, hwait⟩ := h.waits
  -- neither a release nor its own party moves a handler that waits for the worker
  have hgoes : (w.apply a).delivery? p = some run := by
    rcases delivery_cases hr.lawful hd a with hsame | ⟨acts, next, -, hnext, -⟩ | ⟨-, hready, -⟩ |
      ⟨rfl, hnone, -⟩
    · exact hsame
    · obtain ⟨hheld, -⟩ := released?_eq_some.mp hnext
      cases hwait.symm.trans hheld
    · cases (h.stuck hr.orderly p).symm.trans hready
    · rw [apply_run_of_waiting (h.stuck hr.orderly p)] at hnone
      cases hd.symm.trans hnone
  have hworker : (w.apply a).worker = .inLine := by
    by_cases hrun : a = .run .worker
    · rw [hrun, apply_run_of_waiting (h.stuck hr.orderly .worker), h.worker]
    have hstarted : w.queue.started = true := by
      rw [← Bool.not_eq_false]
      intro hs
      cases (place_worker_eq_inLine.mpr h.worker).symm.trans (hr.lawful.started.mp hs)
    cases a with
    | release acts =>
      have hplace := congrFun (congrArg Scene.places (scene_release w acts)) .worker
      exact place_worker_eq_inLine.mp (hplace.trans (place_worker_eq_inLine.mpr h.worker))
    | run | elapse | enqueue | start | deliverNow | close | shutdown =>
      exact (worker_apply_of_other hstarted hrun nofun).trans h.worker
  refine ⟨hworker, ?_, run, hgoes, hwait⟩
  exact (hr.apply a).orderly.holds p (place_eq_busy_iff.mpr ⟨run, hgoes⟩)

theorem Deadlocked.stays (h : w.Deadlocked p) (hr : w.Regular) (actions : List QueueAction) :
    (w.run actions).Deadlocked p ∧ ∀ q, (w.run actions).ready q = false := by
  induction actions generalizing w with
  | nil => exact ⟨h, h.stuck hr.orderly⟩
  | cons a rest ih => exact ih (h.apply hr a) (hr.apply a)

/-- A direct delivery that is in line with the worker waits for the gate for good. -/
theorem Deadlocked.inLine_stays {i : Nat} {b : Batch Nat} {kind : DeliveryKind}
    (h : w.Deadlocked p) (hr : w.Regular) (hcall : w.calls[i]? = some (.inLine b kind))
    (actions : List QueueAction) : (w.run actions).calls[i]? = some (.inLine b kind) := by
  induction actions generalizing w with
  | nil => exact hcall
  | cons a rest ih =>
    refine ih (h.apply hr a) (hr.apply a) ?_
    by_cases hrun : a = .run (.call i)
    · rw [hrun, apply_run_of_waiting (h.stuck hr.orderly (.call i))]
      exact hcall
    · exact getElem?_calls_of_idle hcall nofun hrun

/-- The handler of a direct delivery calls for a shutdown, as the first who does, while the worker
is in line. -/
structure EntersDeadlock (w : ScriptedQueue) (a : QueueAction) (i : Nat) : Prop where
  runs : a = .run (.call i)
  calls : w.shutdownCaller? a = some (.call i)
  first : w.queue.unjoined = true
  worker : w.worker = .inLine

theorem EntersDeadlock.deadlocked {i : Nat} (h : w.EntersDeadlock a i) (hr : w.Regular) :
    (w.apply a).Deadlocked (.call i) := by
  obtain ⟨rfl, hcalls, hfirst, hworker⟩ := h
  obtain ⟨-, next, hgoes, -, -, hwait⟩ := run_of_shutdownCaller hcalls
  refine ⟨?_, ?_, next, hgoes, hwait Party.noConfusion hfirst⟩
  · exact (worker_apply_of_other (hr.asks hfirst) (by simp) (by simp)).trans hworker
  · exact (hr.apply _).orderly.holds _ (place_eq_busy_iff.mpr ⟨next, hgoes⟩)

/-- There is one way only into it. -/
theorem entersDeadlock_of_deadlocked (hr : w.Regular)
    (hnot : ¬ w.Deadlocked p) (h : (w.apply a).Deadlocked p) :
    ∃ i, p = .call i ∧ w.EntersDeadlock a i := by
  obtain ⟨run, hd, hwait⟩ := h.waits
  by_cases hold : w.delivery? p = some run
  · -- the handler waited before, and the worker cannot have come to the line since
    obtain ⟨-, hclosed, -⟩ := hr.awaits p run hold hwait
    have hworker := worker_inLine_of_closed hr.lawful hclosed h.worker
    have hholds := hr.orderly.holds p (place_eq_busy_iff.mpr ⟨run, hold⟩)
    exact absurd ⟨hworker, hholds, run, hold, hwait⟩ hnot
  · obtain ⟨rfl, hne, hcalls, hfirst⟩ := shutdownCaller?_of_waiting hr.lawful hd hwait hold
    cases p with
    | worker => exact absurd rfl hne
    | call i =>
      have hsame : (w.apply (.run (.call i))).worker = w.worker :=
        worker_apply_of_other (hr.asks hfirst) (by simp) (by simp)
      exact ⟨i, rfl, rfl, hcalls, hfirst, hsame.symm.trans h.worker⟩

/-- A handler that waits for the end of the worker waits for one step of the worker at most, unless
the worker is in line. -/
theorem ready_after_worker (hr : w.Regular) (hd : w.delivery? p = some run)
    (hwait : run.wait = .workerEnd) (hnot : ¬ w.Deadlocked p) :
    w.ready p = true ∨ (w.apply (.run .worker)).ready p = true := by
  obtain ⟨hne, hclosed, hstarted⟩ := hr.awaits p run hd hwait
  have hready {v : ScriptedQueue} (hv : v.delivery? p = some run)
      (hover : v.worker.isOver = true) : v.ready p = true := by
    rw [ready_of_delivery hv]
    simp only [handlerReady, hwait, hover]
  have hgoes : (w.apply (.run .worker)).delivery? p = some run := by
    rw [delivery?_of_other hr.lawful (by simpa using hne.symm) (by simp), hd]
  cases hw : w.worker with
  | absent =>
    have hnever : w.queue.started = false := hr.lawful.started.mpr (by simp [scene, place, hw,
      WorkerPoint.place])
    cases hstarted.symm.trans hnever
  | delivering other => exact absurd (delivery_unique hr.orderly hd (delivery?_worker.mpr hw)) hne
  | inLine =>
    have hholds := hr.orderly.holds p (place_eq_busy_iff.mpr ⟨run, hd⟩)
    exact absurd ⟨hw, hholds, run, hd, hwait⟩ hnot
  | fresh | asleep =>
    refine .inr (hready hgoes ?_)
    simp [ScriptedQueue.apply, ready, Queue.workerReady, step, workerStep, workerTurn,
      Queue.workerTurn, Queue.ask, note, hw, hclosed, WorkerPoint.isOver]
  | stopped | crashed => exact .inl (hready hd (by rw [hw]; rfl))

/-! ### Every run -/

/-- A queue may wait for itself for good. In every run: a handler that has called for a shutdown
holds the gate for which the worker waits that it waits for, just if it is the handler of a direct
delivery, was the first who asked for the end of the worker, and called while the worker was in
line; the two then wait for each other whatever happens, nobody can go on, and no delivery begins.
Every other handler that waits for the end of the worker can go on, at once or after one step of the
worker; the worker's own never waits for it. -/
theorem deadlocked_iff_shutdown_in_line (n : Nat) (script : List (List HandlerAct))
    (actions : List QueueAction) :
    let w := (new n script).run actions
    (∀ p, w.Deadlocked p ↔ ∃ i before a after, p = .call i ∧ actions = before ++ a :: after ∧
      ((new n script).run before).EntersDeadlock a i) ∧
    (∀ p, w.Deadlocked p → ∀ more, (w.run more).Deadlocked p ∧
      (∀ q, (w.run more).ready q = false) ∧ (w.run more).begun = w.begun) ∧
    ∀ p run, w.delivery? p = some run → run.wait = .workerEnd → ¬ w.Deadlocked p →
      p ≠ .worker ∧ (w.ready p = true ∨ (w.apply (.run .worker)).ready p = true) := by
  intro w
  have hr : w.Regular := regular_run n script actions
  refine ⟨fun p => ⟨?_, ?_⟩, ?_, ?_⟩
  · intro h
    -- the moment before the first at which the two waited for each other
    clear hr
    induction actions using List.reverseRecOn with
    | nil => cases h.worker
    | append_singleton before a ih =>
      have hrun : w = ((new n script).run before).apply a := run_append _ before [a]
      by_cases hbefore : ((new n script).run before).Deadlocked p
      · obtain ⟨i, first, b, after, hp, hactions, henters⟩ := ih hbefore
        refine ⟨i, first, b, after ++ [a], hp, ?_, henters⟩
        rw [hactions, List.append_assoc, List.cons_append]
      · obtain ⟨i, hp, henters⟩ :=
          entersDeadlock_of_deadlocked (regular_run n script before) hbefore (hrun ▸ h)
        exact ⟨i, before, a, [], hp, rfl, henters⟩
  · rintro ⟨i, before, a, after, rfl, hactions, henters⟩
    have hbefore := regular_run n script before
    have hrun : w = (((new n script).run before).apply a).run after := by
      simp only [w, hactions, run_append]
      rfl
    rw [hrun]
    exact ((henters.deadlocked hbefore).stays (hbefore.apply a) after).1
  · intro p h more
    obtain ⟨run, hd, hwait⟩ := h.waits
    obtain ⟨-, hclosed, -⟩ := hr.awaits p run hd hwait
    obtain ⟨hstays, hstuck⟩ := h.stays hr more
    exact ⟨hstays, hstuck, (winds_run hr.lawful hclosed more).2.begun⟩
  · intro p run hd hwait hnot
    exact ⟨(hr.awaits p run hd hwait).1, ready_after_worker hr hd hwait hnot⟩

/-- The worker is at work on a live batch, and a historical one waits in line. When the worker stands
in line again, behind it, the handler of the historical batch calls for a shutdown. -/
theorem historical_handler_waits_for_worker_in_line :
    let w := (new 8 [[.hold], [.shutdown]]).run [.start, .run .worker, .run .worker,
      .enqueue ⟨[⟨1, ""⟩]⟩, .run .worker, .run .worker, .run .worker,
      .deliverNow ⟨[⟨2, ""⟩]⟩ .historical, .release [], .run .worker, .run (.call 0),
      .run (.call 0)]
    w.Deadlocked (.call 0) := by
  intro w
  have hplace : w.place .worker = .inLine := by decide +kernel
  exact ⟨place_worker_eq_inLine.mp hplace, by decide +kernel,
    ⟨⟨[⟨2, ""⟩]⟩, .historical, [], .workerEnd, none⟩, by decide +kernel, rfl⟩

end ScriptedQueue

end Multicast
