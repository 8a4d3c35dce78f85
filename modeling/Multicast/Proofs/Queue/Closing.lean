import Multicast.Proofs.Queue.Conservation
import Multicast.Proofs.Queue.Deadlock
import Multicast.Proofs.Queue.Wakeup

/-! What a close leaves of a queue. Nothing is pending in it, it refuses whatever it is asked for,
and nothing begins in it any more. A delivery that is under way goes on by itself, and nothing cuts
it off; it comes to its end unless it waits for the gate that it holds itself, or for a worker that
does. -/

namespace Multicast

open Function (update)

namespace Scene

variable {a b : Scene} {asked : Batch Nat → DeliveryKind → Prop} {takes : Prop}

/-- A queue that has closed has no room for anything. -/
theorem Turn.roomless (t : Turn asked takes a b)
    (h : a.queue.closed = true → a.queue.heap = .withCapacity 0) :
    b.queue.closed = true → b.queue.heap = .withCapacity 0 := by
  cases t with
  | @accept q _ _ batch hc =>
    intro hclosed
    simp [Queue.enqueue, hc] at hclosed
  | close => exact fun _ => rfl
  | @start q _ _ hc hs =>
    intro hclosed
    simp [Queue.start, hc, hs] at hclosed
  | take batch rest hp hg hb hc => exact fun hclosed => absurd (hc.symm.trans hclosed) (by simp)
  | tell | join | appear | wake | standInLine | stop | findNothing | sleep | handBack | ask | serve
  | depart => exact h

/-- Once a queue has closed, whoever may ask for the end of the worker could do so before. -/
theorem Turn.unjoined_of_closed (t : Turn asked takes a b) (hc : a.queue.closed = true)
    (hu : b.queue.unjoined = true) : a.queue.unjoined = true := by
  cases t with
  | join => cases hu
  | accept _ ho | start ho => cases ho.symm.trans hc
  | tell | close | appear | wake | standInLine | stop | take | findNothing | sleep | handBack | ask
  | serve | depart => exact hu

/-- No delivery begins in a queue that has closed. -/
theorem Turn.busy_of_closed {p : Party} (t : Turn asked takes a b) (hc : a.queue.closed = true)
    (hb : b.places p = .busy) : a.places p = .busy := by
  have hmove {P : Party → Place} {q : Party} {place : Place} (hplace : place ≠ .busy)
      (h : update P q place p = .busy) : P p = .busy := by
    by_cases hp : p = q
    · rw [hp, Function.update_self] at h
      exact absurd h hplace
    · rwa [Function.update_of_ne hp] at h
  cases t with
  | tell | join | accept | close => exact hb
  | appear | wake | stop | findNothing | sleep | depart => exact hmove (by simp) hb
  | handBack place hp hplace =>
    refine hmove ?_ hb
    rcases hplace with rfl | rfl <;> simp
  | start ho | standInLine _ ho | take _ _ _ _ _ ho | ask _ _ _ _ ho | serve _ _ _ _ _ ho =>
    cases ho.symm.trans hc

theorem Turns.busy_of_closed {p : Party} (t : Turns asked takes a b) (hc : a.queue.closed = true)
    (hb : b.places p = .busy) : a.places p = .busy := by
  induction t with
  | refl => exact hb
  | tail t t' ih => exact ih (t'.busy_of_closed (Turns.winds t hc).closed hb)

theorem Turns.unjoined_of_closed (t : Turns asked takes a b) (hc : a.queue.closed = true)
    (hu : b.queue.unjoined = true) : a.queue.unjoined = true := by
  induction t with
  | refl => exact hu
  | tail t t' ih => exact ih (t'.unjoined_of_closed (Turns.winds t hc).closed hu)

end Scene

namespace ScriptedQueue

variable {w v : ScriptedQueue} {p : Party} {i : Nat} {run next : HandlerRun} {a : QueueAction}

/-- Whether an action closes the queue: a close or a shutdown, of a caller or in a handler that can
reach the queue. -/
def Closes (w : ScriptedQueue) : QueueAction → Prop
  | .close | .shutdown => True
  | .run p => (w.nextAct? p = some .close ∨ w.nextAct? p = some .shutdown) ∧ w.outOfReach = false
  | _ => False

/-- A handler that closes the queue goes on. -/
theorem handlerStep_close (p : Party) (hacts : run.acts.head? = some .close)
    (hreach : w.outOfReach = false) :
    ∃ u next, w.handlerStep p run = (u, .running next) ∧ u.queue.closed = true := by
  obtain ⟨rest, hacts⟩ := List.head?_eq_some_iff.mp hacts
  obtain ⟨u, -, hreach', hstep⟩ := exists_handlerStep w p run
  simp only [hacts, handlerAct, hreach'.trans hreach, Bool.false_eq_true, if_false] at hstep
  exact ⟨_, _, hstep, rfl⟩

theorem closed_of_closes (h : w.Closes a) : (w.apply a).queue.closed = true := by
  cases a with
  | close => rfl
  | shutdown => exact (shutdown_apply (p := .call w.calls.length) rfl).1
  | run p =>
    obtain ⟨hnext, hreach⟩ := h
    rcases hnext with hnext | hnext
    · unfold nextAct? at hnext
      split at hnext
      · rename_i hready
        obtain ⟨run, hd, hacts⟩ := Option.bind_eq_some_iff.mp hnext
        obtain ⟨u, next, hs, hclosed⟩ := handlerStep_close p hacts hreach
        rw [apply_run_of_ready hready, (step_of_running hd hs).1, hclosed]
      · cases hnext
    · have hcaller : w.shutdownCaller? (.run p) = some p := by
        simp [shutdownCaller?, hnext, hreach]
      exact (shutdown_apply hcaller).1
  | elapse | enqueue | start | deliverNow | release => exact h.elim

/-! ### What a closed queue refuses -/

/-- What is asked of a queue that has closed: it accepts nothing, starts no worker and makes no
direct delivery, and there is nothing left to close. Only the right to wait for the worker goes to
whoever is the first to call for a shutdown. -/
structure Refusing (w : ScriptedQueue) : Prop where
  enqueue : ∀ b, w.enqueue b = (w, false)
  start : w.start = (w, false)
  deliverNow : ∀ b kind, w.deliverNow b kind = w.addCall (.returned (some false))
  close : w.close = w.note (.discarded [])
  shutdown : w.shutdown =
    ({ w with queue := { w.queue with unjoined := false } }.note (.discarded [])).addCall
      (if w.queue.unjoined then .joining else .returned none)

theorem refusing_of_closed (hc : w.queue.closed = true)
    (hheap : w.queue.heap = .withCapacity 0) : w.Refusing := by
  have hclose : w.close = w.note (.discarded []) := by
    have hqueue : w.queue.close = w.queue := by
      unfold Queue.close
      rw [← hc, ← hheap]
    rw [ScriptedQueue.close, hqueue, hheap]
    rfl
  refine ⟨fun b => ?_, ?_, fun b kind => ?_, hclose, ?_⟩
  · simp [ScriptedQueue.enqueue, Queue.enqueue, hc]
  · simp [ScriptedQueue.start, Queue.start, hc]
  · simp [ScriptedQueue.deliverNow, Queue.ask, hc]
  · cases hu : w.queue.unjoined with
    | true => simp [ScriptedQueue.shutdown, hclose, Queue.join, note, hu]
    | false =>
      have hqueue : { w.queue with unjoined := false } = w.queue := by rw [← hu]
      simp [ScriptedQueue.shutdown, hclose, Queue.join, note, hu, hqueue]

/-- A direct delivery that waits in a closed queue waits on, or returns without having begun. -/
theorem call_of_closed {b : Batch Nat} {kind : DeliveryKind} (hc : w.queue.closed = true)
    (hcall : w.calls[i]? = some (.inLine b kind)) (a : QueueAction) :
    (w.apply a).calls[i]? = some (.inLine b kind) ∨
      (w.apply a).calls[i]? = some (.returned (some false)) := by
  by_cases hrun : a = .run (.call i)
  · have hi : i < w.calls.length := (List.getElem?_eq_some_iff.mp hcall).1
    cases hready : w.ready (.call i) with
    | false =>
      rw [hrun, apply_run_of_waiting hready]
      exact .inl hcall
    | true =>
      rw [hrun, apply_run_of_ready hready, step_call_of_closed hcall hc]
      exact .inr (List.getElem?_set_self hi)
  · exact .inl (getElem?_calls_of_idle hcall nofun hrun)

/-- A call that has returned does not change any more. -/
theorem getElem?_calls_of_returned {answer : Option Bool}
    (hcall : w.calls[i]? = some (.returned answer)) (a : QueueAction) :
    (w.apply a).calls[i]? = some (.returned answer) := by
  by_cases hrun : a = .run (.call i)
  · have hready : w.ready (.call i) = false := by simp only [ready, hcall]
    rw [hrun, apply_run_of_waiting hready, hcall]
  · exact getElem?_calls_of_idle hcall (fun _ hruns => by cases hruns) hrun

theorem call_of_closed_run {b : Batch Nat} {kind : DeliveryKind} (hr : w.Regular)
    (hc : w.queue.closed = true)
    (hcall : w.calls[i]? = some (.inLine b kind) ∨ w.calls[i]? = some (.returned (some false)))
    (actions : List QueueAction) :
    (w.run actions).calls[i]? = some (.inLine b kind) ∨
      (w.run actions).calls[i]? = some (.returned (some false)) := by
  induction actions generalizing w with
  | nil => exact hcall
  | cons a rest ih =>
    refine ih (hr.apply a) (winds_apply hr.lawful hc a).2.closed ?_
    rcases hcall with hcall | hcall
    · exact call_of_closed hc hcall a
    · exact .inr (getElem?_calls_of_returned hcall a)

/-! ### A delivery under way -/

/-- A delivery that is under way goes on until its end is told. -/
theorem underWay_or_ended (hr : w.Regular) (hd : w.delivery? p = some run)
    (actions : List QueueAction) :
    (∃ next, (w.run actions).delivery? p = some next ∧ next.batch = run.batch) ∨
      Happened (QueueEvent.Ends p run.batch) w (w.run actions) := by
  induction actions generalizing w run with
  | nil => exact .inl ⟨run, hd, rfl⟩
  | cons a rest ih =>
    have hgoes {next : HandlerRun} (hnext : (w.apply a).delivery? p = some next)
        (hbatch : next.batch = run.batch) :
        (∃ last, ((w.apply a).run rest).delivery? p = some last ∧ last.batch = run.batch) ∨
          Happened (QueueEvent.Ends p run.batch) w ((w.apply a).run rest) := by
      rw [← hbatch]
      exact (ih (hr.apply a) hnext).imp_right (·.of_earlier (history_suffix_apply hr.lawful a))
    rcases delivery_cases hr.lawful hd a with hsame | ⟨acts, next, -, hnext, hafter⟩ |
      ⟨-, -, u, next, hs, -, hafter⟩ | ⟨-, -, hended⟩
    · exact hgoes hsame rfl
    · obtain ⟨-, rfl⟩ := released?_eq_some.mp hnext
      exact hgoes hafter rfl
    · obtain ⟨act, -, hbatch, -⟩ := handlerStep_running hs
      exact hgoes hafter hbatch
    · exact .inr (hended.of_later (history_suffix_run (hr.apply a).lawful rest))

/-- What furthers the delivery of a party: the party or the worker goes on, time passes, or a
handler that is held goes on with the acts that it had left. -/
inductive Furthers (p : Party) (w : ScriptedQueue) : QueueAction → Prop
  | own : Furthers p w (.run p)
  | worker : Furthers p w (.run .worker)
  | elapse (ms : Nat) : Furthers p w (.elapse ms)
  | release (run : HandlerRun) (hd : w.delivery? p = some run) : Furthers p w (.release run.acts)

/-- Nothing happens but what furthers the delivery of the party. -/
def PlaysOut (p : Party) : ScriptedQueue → List QueueAction → Prop
  | _, [] => True
  | w, a :: rest => w.Furthers p a ∧ PlaysOut p (w.apply a) rest

/-- A delivery in a closed queue that does not wait for itself; if the worker stands in line, it
does not wait for its end, and will not be the first who asks for it. -/
structure Free (w : ScriptedQueue) (run : HandlerRun) : Prop where
  itself : run.wait ≠ .itself
  waits : w.worker = .inLine → run.wait ≠ .workerEnd
  calls : w.worker = .inLine → w.queue.unjoined = true → .shutdown ∉ run.acts

theorem Free.apply (h : w.Free run) (hr : w.Regular) (hc : w.queue.closed = true)
    (hitself : next.wait ≠ .itself) (hacts : next.acts ⊆ run.acts)
    (hwait : next.wait = .workerEnd → w.worker ≠ .inLine) (a : QueueAction) :
    (w.apply a).Free next where
  itself := hitself
  waits hw hend := hwait hend (worker_inLine_of_closed hr.lawful hc hw)
  calls hw hu hmem := by
    have hbefore := (turns_apply_any hr.lawful a).unjoined_of_closed hc hu
    exact h.calls (worker_inLine_of_closed hr.lawful hc hw) hbefore (hacts hmem)

/-- A delivery that is free goes on as soon as its wait is over, or the worker has seen that the
queue has closed. -/
theorem ready_or_furthered (hr : w.Regular) (hd : w.delivery? p = some run)
    (hc : w.queue.closed = true) (hf : w.Free run) :
    w.ready p = true ∨ ∃ a next, w.Furthers p a ∧ (w.apply a).delivery? p = some next ∧
      next.acts = run.acts ∧ next.batch = run.batch ∧ (w.apply a).ready p = true ∧
      (w.apply a).Free next := by
  have hsub : run.acts ⊆ run.acts := List.Subset.refl _
  -- each kind of wait is over after one step, of the clock, of a release or of the worker
  cases hwait : run.wait with
  | nothing =>
    rw [ready_of_delivery hd]
    simp only [handlerReady, hwait, true_or]
  | moment t =>
    have hgoes : (w.apply (.elapse t)).delivery? p = some run := by
      rw [delivery?_of_other hr.lawful (by simp) (by simp), hd]
    have hfree : (w.apply (.elapse t)).Free run :=
      hf.apply hr hc hf.itself hsub (by simp [hwait]) _
    refine .inr ⟨.elapse t, run, .elapse t, hgoes, rfl, rfl, ?_, hfree⟩
    rw [ready_of_delivery hgoes]
    simp [handlerReady, hwait, ScriptedQueue.apply]
  | release =>
    have hgoes : (w.apply (.release run.acts)).delivery? p =
        some { run with acts := run.acts, wait := .nothing } :=
      delivery?_release_of_held hr.orderly hd hwait run.acts
    have hleft : ({ run with acts := run.acts, wait := .nothing } : HandlerRun).acts ⊆ run.acts :=
      hsub
    have hfree := hf.apply hr hc HandlerWait.noConfusion hleft HandlerWait.noConfusion
      (.release run.acts)
    refine .inr ⟨.release run.acts, _, .release run hd, hgoes, rfl, rfl, ?_, hfree⟩
    rw [ready_of_delivery hgoes]
    rfl
  | workerEnd =>
    have hworker : w.worker ≠ .inLine := fun hw => hf.waits hw hwait
    have hnot : ¬ w.Deadlocked p := fun h => hworker h.worker
    refine (ready_after_worker hr hd hwait hnot).imp_right fun hready => ?_
    have hne : p ≠ .worker := (hr.awaits p run hd hwait).1
    have hgoes : (w.apply (.run .worker)).delivery? p = some run := by
      rw [delivery?_of_other hr.lawful (by simpa using hne.symm) (by simp), hd]
    exact ⟨.run .worker, run, .worker, hgoes, rfl, rfl, hready,
      hf.apply hr hc hf.itself hsub (fun _ => hworker) _⟩
  | itself => exact absurd hwait hf.itself

/-- A free delivery that does an act goes on as a free one. -/
theorem free_of_running {u : ScriptedQueue} (hr : w.Regular) (hc : w.queue.closed = true)
    (hf : w.Free run) (hs : w.handlerStep p run = (u, .running next)) (a : QueueAction) :
    (w.apply a).Free next := by
  obtain ⟨act, hacts, -, hitself, hwaits⟩ := handlerStep_running hs
  have hsub : next.acts ⊆ run.acts := by
    rw [hacts]
    exact List.subset_cons_self act next.acts
  refine hf.apply hr hc ?_ hsub ?_ a
  · intro hwait
    cases (hitself hwait).symm.trans hc
  · intro hwait hw
    obtain ⟨rfl, -, -, hu⟩ := hwaits hwait
    refine hf.calls hw hu ?_
    rw [hacts]
    exact List.mem_cons_self

/-- A delivery of the party comes to its end, by what furthers it alone. -/
def CanEnd (w : ScriptedQueue) (p : Party) (b : Batch Nat) : Prop :=
  ∃ more, w.PlaysOut p more ∧ (w.run more).delivery? p = none ∧
    Happened (QueueEvent.Ends p b) w (w.run more)

theorem CanEnd.of_apply {b : Batch Nat} (h : (w.apply a).CanEnd p b) (hr : w.Regular)
    (ha : w.Furthers p a) : w.CanEnd p b := by
  obtain ⟨more, hplays, hnone, hended⟩ := h
  exact ⟨a :: more, ⟨ha, hplays⟩, hnone, hended.of_earlier (history_suffix_apply hr.lawful a)⟩

/-- A delivery that does not go on in its next step has come to its end. -/
theorem canEnd_of_over {u : ScriptedQueue} {progress : Progress HandlerRun (Option Bool)}
    (hd : w.delivery? p = some run) (hready : w.ready p = true)
    (hs : w.handlerStep p run = (u, progress)) (hover : ∀ next, progress ≠ .running next) :
    w.CanEnd p run.batch := by
  obtain ⟨hnone, hended⟩ := step_of_over hd hs hover
  rw [← apply_run_of_ready hready] at hnone hended
  exact ⟨[.run p], ⟨.own, trivial⟩, hnone, hended⟩

/-- A free delivery comes to its end if those do that need not wait and have the same acts left. -/
theorem canEnd_of_ready (hr : w.Regular) (hd : w.delivery? p = some run)
    (hc : w.queue.closed = true) (hf : w.Free run)
    (hends : ∀ (v : ScriptedQueue) (next : HandlerRun), v.Regular → v.delivery? p = some next →
      v.queue.closed = true → v.Free next → next.acts = run.acts → v.ready p = true →
      v.CanEnd p next.batch) :
    w.CanEnd p run.batch := by
  rcases ready_or_furthered hr hd hc hf with hready |
    ⟨a, next, ha, hnext, hacts, hbatch, hready, hf'⟩
  · exact hends w run hr hd hc hf rfl hready
  · have hc' : (w.apply a).queue.closed = true := (winds_apply hr.lawful hc a).2.closed
    have hend := hends _ next (hr.apply a) hnext hc' hf' hacts hready
    rw [hbatch] at hend
    exact hend.of_apply hr ha

/-- Nothing in a closed queue keeps a free delivery from its end. -/
theorem canEnd_of_free (hr : w.Regular) (hd : w.delivery? p = some run)
    (hc : w.queue.closed = true) (hf : w.Free run) : w.CanEnd p run.batch := by
  refine canEnd_of_ready hr hd hc hf ?_
  -- each act is done once, and what is left then are the acts after it
  generalize run.acts = acts
  induction acts with
  | nil =>
    intro v next hrv hdv hcv hfv hacts hready
    obtain ⟨u, -, -, hs⟩ := exists_handlerStep v p next
    rw [hacts] at hs
    exact canEnd_of_over hdv hready hs nofun
  | cons act rest ih =>
    intro v next hrv hdv hcv hfv hacts hready
    rcases hs : v.handlerStep p next with ⟨u, progress⟩
    cases progress with
    | running after =>
      obtain ⟨act', hsplit, hbatch, -⟩ := handlerStep_running hs
      obtain rfl : after.acts = rest := (List.cons.inj (hsplit.symm.trans hacts)).2
      have hgoes : (v.apply (.run p)).delivery? p = some after := by
        rw [apply_run_of_ready hready, (step_of_running hdv hs).2]
      have hclosed : (v.apply (.run p)).queue.closed = true :=
        (winds_apply hrv.lawful hcv _).2.closed
      have hfree := free_of_running hrv hcv hfv hs (.run p)
      have hend := canEnd_of_ready (hrv.apply (.run p)) hgoes hclosed hfree ih
      rw [hbatch] at hend
      exact hend.of_apply hrv .own
    | done | crashed => exact canEnd_of_over hdv hready hs nofun

/-! ### Those that wait -/

theorem idle_apply_of_closed (hr : w.Regular) (hc : w.queue.closed = true)
    (hidle : w.delivery? p = none) (a : QueueAction) : (w.apply a).delivery? p = none := by
  refine delivery?_eq_none_of_place fun hbusy => ?_
  have hbefore : w.place p = .busy := (turns_apply_any hr.lawful a).busy_of_closed hc hbusy
  obtain ⟨other, hother⟩ := place_eq_busy_iff.mp hbefore
  cases hidle.symm.trans hother

theorem idle_of_closed (hr : w.Regular) (hc : w.queue.closed = true)
    (hidle : w.delivery? p = none) (actions : List QueueAction) :
    (w.run actions).delivery? p = none := by
  induction actions generalizing w with
  | nil => exact hidle
  | cons a rest ih =>
    exact ih (hr.apply a) (winds_apply hr.lawful hc a).2.closed
      (idle_apply_of_closed hr hc hidle a)

/-- In a closed queue the head of the line gives the gate to the next one, if it has no delivery
under way. -/
theorem gate_apply_of_closed {q : Party} (hr : w.Regular) (hc : w.queue.closed = true)
    (hidle : w.delivery? q = none) (hg : w.queue.gate.holds q = true) :
    (w.apply (.run q)).queue.gate = w.queue.gate.leave q := by
  have hat : (w.place q).atGate = true :=
    (hr.orderly.mem q).mp (List.mem_of_head? (Gate.holds_iff.mp hg))
  rw [apply_run_of_ready (ready_of_holds hg hat hidle)]
  -- the worker finds nothing to take, a call finds the queue closed
  cases q with
  | worker =>
    have hempty : w.queue.heap.pop? = none :=
      (Heap.pop?_eq_none_iff _).mpr (hr.lawful.emptied hc)
    cases hw : w.worker with
    | inLine => simp [step, workerStep, hw, Queue.takeNext, hempty]
    | delivering run => cases hidle.symm.trans (delivery?_worker.mpr hw)
    | absent | fresh | asleep | stopped | crashed =>
      simp [place, hw, WorkerPoint.place, Place.atGate] at hat
  | call i =>
    cases hcall : w.calls[i]? with
    | none => simp [place, hcall, Place.atGate] at hat
    | some c =>
      cases c with
      | inLine b kind =>
        rw [step_call_of_closed hcall hc]
        rfl
      | delivering run => cases hidle.symm.trans (delivery?_call.mpr hcall)
      | joining | returned | crashed =>
        simp [place, hcall, QueueCall.place, Place.atGate] at hat

/-- A direct delivery that waits in a closed queue returns when it has come to the head of the line.
-/
theorem exists_return {b : Batch Nat} {kind : DeliveryKind} (hr : w.Regular)
    (hc : w.queue.closed = true) (hidle : ∀ p, w.delivery? p = none)
    (hcall : w.calls[i]? = some (.inLine b kind)) :
    ∃ more, (w.run more).calls[i]? = some (.returned (some false)) := by
  have hmem : .call i ∈ w.queue.gate.line :=
    (hr.orderly.mem _).mpr (congrArg Place.atGate (place_call hcall))
  -- whoever stands before it leaves the line
  induction hline : w.queue.gate.line generalizing w with
  | nil =>
    rw [hline] at hmem
    cases hmem
  | cons q others ih =>
    have hg : w.queue.gate.holds q = true := Gate.holds_iff.mpr (by rw [hline]; rfl)
    by_cases hq : q = .call i
    · subst hq
      have hready : w.ready (.call i) = true := by simp only [ready, hcall, hg]
      refine ⟨[.run (.call i)], ?_⟩
      have hi := (List.getElem?_eq_some_iff.mp hcall).1
      have hstep := apply_run_of_ready hready
      rw [step_call_of_closed hcall hc] at hstep
      exact (congrArg (·.calls[i]?) hstep).trans (List.getElem?_set_self hi)
    · have hgate := gate_apply_of_closed hr hc (hidle q) hg
      have hline' : (w.apply (.run q)).queue.gate.line = others := by
        rw [hgate, Gate.line_leave, hline, List.erase_cons_head]
      have hcall' : (w.apply (.run q)).calls[i]? = some (.inLine b kind) :=
        getElem?_calls_of_idle hcall (fun _ hruns => by cases hruns) (by simpa using hq)
      have hmem' : .call i ∈ (w.apply (.run q)).queue.gate.line := by
        rw [hline']
        exact (List.mem_cons.mp (hline ▸ hmem)).resolve_left (Ne.symm hq)
      obtain ⟨more, hmore⟩ := ih (hr.apply _) (winds_apply hr.lawful hc _).2.closed
        (fun p => idle_apply_of_closed hr hc (hidle p) _) hcall' hmem' hline'
      exact ⟨.run q :: more, hmore⟩

/-- So it does if a delivery is under way that is free. -/
theorem exists_return_of_free {b : Batch Nat} {kind : DeliveryKind} (hr : w.Regular)
    (hc : w.queue.closed = true) (hfree : ∀ p run, w.delivery? p = some run → w.Free run)
    (hcall : w.calls[i]? = some (.inLine b kind)) :
    ∃ more, (w.run more).calls[i]? = some (.returned (some false)) := by
  by_cases hidle : ∀ p, w.delivery? p = none
  · exact exists_return hr hc hidle hcall
  · obtain ⟨p, hp⟩ := not_forall.mp hidle
    obtain ⟨run, hd⟩ := Option.ne_none_iff_exists'.mp hp
    obtain ⟨more, -, hnone, -⟩ := canEnd_of_free hr hd hc (hfree p run hd)
    have hidle' (q : Party) : (w.run more).delivery? q = none := by
      by_cases hq : q = p
      · rw [hq, hnone]
      · have hidle : w.delivery? q = none :=
          Option.eq_none_iff_forall_ne_some.mpr fun other hother =>
            hq (delivery_unique hr.orderly hother hd)
        exact idle_of_closed hr hc hidle more
    have hclosed := (winds_run hr.lawful hc more).2.closed
    rcases call_of_closed_run hr hc (.inl hcall) more with hwaits | hreturned
    · obtain ⟨rest, hrest⟩ := exists_return (hr.stays more) hclosed hidle' hwaits
      exact ⟨more ++ rest, by rw [run_append, hrest]⟩
    · exact ⟨more, hreturned⟩

/-! ### Every run -/

theorem roomless_run (n : Nat) (script : List (List HandlerAct)) (actions : List QueueAction)
    (hc : ((new n script).run actions).queue.closed = true) :
    ((new n script).run actions).queue.heap = .withCapacity 0 :=
  (run_scene_induction (I := fun a => a.queue.closed = true → a.queue.heap = .withCapacity 0)
    n script actions nofun fun _ _ _ h t => t.roomless h).2 hc

theorem unjoined_of_closed_run (hr : w.Regular) (hc : w.queue.closed = true)
    (actions : List QueueAction) (hu : (w.run actions).queue.unjoined = true) :
    w.queue.unjoined = true := by
  induction actions generalizing w with
  | nil => exact hu
  | cons a rest ih =>
    have hclosed := (winds_apply hr.lawful hc a).2.closed
    exact (turns_apply_any hr.lawful a).unjoined_of_closed hc (ih (hr.apply a) hclosed hu)

/-- What is so of a queue `v` that closed in `w`, at the latest. -/
structure ClosedSince (w v : ScriptedQueue) : Prop where
  closed : v.queue.closed = true
  empty : v.queue.size = 0
  refuses : v.Refusing
  begun : v.begun = w.begun
  accounts : v.accepted = v.taken + v.discarded
  waiting : ∀ (i : Nat) (b : Batch Nat) (kind : DeliveryKind),
    w.calls[i]? = some (.inLine b kind) →
      v.calls[i]? = some (.inLine b kind) ∨ v.calls[i]? = some (.returned (some false))
  returns : (∀ p run, v.delivery? p = some run → v.Free run) →
    ∀ (i : Nat) (b : Batch Nat) (kind : DeliveryKind), v.calls[i]? = some (.inLine b kind) →
      ∃ more, (v.run more).calls[i]? = some (.returned (some false))
  underWay : ∀ p run, w.delivery? p = some run →
    (∃ next, v.delivery? p = some next ∧ next.batch = run.batch) ∨
      Happened (QueueEvent.Ends p run.batch) w v
  ends : ∀ p run, v.delivery? p = some run → v.Free run → v.CanEnd p run.batch

/-- A queue that has closed is closed for good. In every run, whoever closes the queue or calls for
a shutdown, from outside or in the handler: from then on nothing is pending in it, it accepts
nothing, starts no worker and makes no delivery, those included that were waiting in line, which
return; what was accepted before has been handed over or discarded; and nothing changes when it is
closed again, but that the first shutdown takes the right to wait for the worker. A delivery that is
under way is never cut off. It comes to its end, unless it waits for the gate that it holds itself,
or the worker waits for this gate and the handler waits for the worker or will. -/
theorem closed_since_close (n : Nat) (script : List (List HandlerAct))
    (before : List QueueAction) (a : QueueAction) (hcloses : ((new n script).run before).Closes a)
    (after : List QueueAction) :
    let w := ((new n script).run before).apply a
    ClosedSince w (w.run after) ∧
      ∀ p, ((new n script).run before).shutdownCaller? a = some p →
        (w.run after).queue.unjoined = false := by
  intro w
  have hr : w.Regular := (regular_run n script before).apply a
  have hc : w.queue.closed = true := closed_of_closes hcloses
  obtain ⟨-, hwinds⟩ := winds_run hr.lawful hc after
  have hrv : (w.run after).Regular := hr.stays after
  have hv : w.run after = (new n script).run (before ++ a :: after) :=
    (run_append (new n script) before (a :: after)).symm
  have hheap : (w.run after).queue.heap = .withCapacity 0 := by
    have hclosed := hwinds.closed
    rw [show (w.run after).scene.queue = (w.run after).queue from rfl, hv] at hclosed
    rw [hv]
    exact roomless_run n script _ hclosed
  have haccounts : (w.run after).Balanced fun _ => True :=
    hv ▸ balanced_run n script fun _ _ _ => trivial
  refine ⟨?_, ?_⟩
  · refine
      { closed := hwinds.closed
        empty := by rw [Queue.size, hheap]; rfl
        refuses := refusing_of_closed hwinds.closed hheap
        begun := hwinds.begun
        accounts := ?_
        waiting := fun i b kind hcall => call_of_closed_run hr hc (.inl hcall) after
        returns := ?_
        underWay := fun p run hd => underWay_or_ended hr hd after
        ends := fun p run hd hf => canEnd_of_free hrv hd hwinds.closed hf }
    · rw [haccounts.balance, haccounts.leaves hwinds.closed, add_zero]
    · intro hfree i b kind hcall
      exact exists_return_of_free hrv hwinds.closed hfree hcall
  · intro p hcaller
    cases hu : (w.run after).queue.unjoined with
    | false => rfl
    | true =>
      cases (shutdown_apply hcaller).2.1.symm.trans (unjoined_of_closed_run hr hc after hu)

/-- The worker is at work on a batch when the queue is closed, and another one is pending. Nothing
is pending any more; the worker can finish what it has begun. -/
theorem closed_since_close_of_held :
    let before := [.start, .enqueue ⟨[⟨1, ""⟩]⟩, .enqueue ⟨[⟨2, ""⟩]⟩, .run .worker, .run .worker,
      .run .worker]
    let w := ((new 8 [[.hold]]).run before).apply .close
    w.queue.size = 0 ∧ w.delivery? .worker = some ⟨⟨[⟨1, ""⟩]⟩, .live, [], .release, none⟩ ∧
      w.CanEnd .worker ⟨[⟨1, ""⟩]⟩ := by
  intro before w
  have hclosed := (closed_since_close 8 [[.hold]] before .close trivial []).1
  have hd : w.delivery? .worker = some ⟨⟨[⟨1, ""⟩]⟩, .live, [], .release, none⟩ := by decide +kernel
  have hplace : w.place .worker ≠ .inLine := by decide +kernel
  have hline : w.worker ≠ .inLine := fun h => hplace (place_worker_eq_inLine.mpr h)
  have hfree : w.Free ⟨⟨[⟨1, ""⟩]⟩, .live, [], .release, none⟩ :=
    ⟨nofun, fun h => absurd h hline, fun h => absurd h hline⟩
  exact ⟨hclosed.empty, hd, hclosed.ends .worker _ hd hfree⟩

/-- A direct delivery is under way, another one stands in line behind it, and the worker behind both.
The handler closes the queue by a shutdown: its delivery never comes to its end, and the one in line
never returns. -/
theorem delivery_under_way_at_close_never_ends :
    let before := [.start, .run .worker, .run .worker, .enqueue ⟨[⟨1, ""⟩]⟩, .run .worker,
      .run .worker, .run .worker, .deliverNow ⟨[⟨2, ""⟩]⟩ .historical,
      .deliverNow ⟨[⟨3, ""⟩]⟩ .historical, .release [], .run .worker, .run (.call 0)]
    let w := (new 8 [[.hold], [.shutdown]]).run before
    w.Closes (.run (.call 0)) ∧
      w.delivery? (.call 0) = some ⟨⟨[⟨2, ""⟩]⟩, .historical, [.shutdown], .nothing, none⟩ ∧
      w.calls[1]? = some (.inLine ⟨[⟨3, ""⟩]⟩ .historical) ∧
      ∀ after, let v := (w.apply (.run (.call 0))).run after
        (∃ run, v.delivery? (.call 0) = some run ∧ run.wait = .workerEnd) ∧
          v.calls[1]? = some (.inLine ⟨[⟨3, ""⟩]⟩ .historical) := by
  intro before w
  have hcloses : w.Closes (.run (.call 0)) := ⟨.inr (by decide +kernel), by decide +kernel⟩
  refine ⟨hcloses, by decide +kernel, by decide +kernel, fun after => ?_⟩
  have hr : (w.apply (.run (.call 0))).Regular :=
    (regular_run 8 [[.hold], [.shutdown]] before).apply _
  have hplace : (w.apply (.run (.call 0))).place .worker = .inLine := by decide +kernel
  have hdeadlock : (w.apply (.run (.call 0))).Deadlocked (.call 0) :=
    ⟨place_worker_eq_inLine.mp hplace, by decide +kernel,
      ⟨⟨[⟨2, ""⟩]⟩, .historical, [], .workerEnd, none⟩, by decide +kernel, rfl⟩
  exact ⟨(hdeadlock.stays hr after).1.waits,
    hdeadlock.inLine_stays hr (by decide +kernel) after⟩

end ScriptedQueue

end Multicast
