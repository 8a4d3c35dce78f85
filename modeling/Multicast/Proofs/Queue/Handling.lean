import Multicast.Proofs.Queue.Shutdown

/-! The course of one delivery. Once it is under way only its own party lets it go on, act by act,
or a release, which gives it other acts; nothing else that happens in the queue touches it, and it
does not vanish without its end being told. -/

namespace Multicast

/-- Whether an event tells of the end of a delivery that a party had under way. -/
def QueueEvent.Ends (p : Party) (b : Batch Nat) : QueueEvent → Prop
  | .handled q c _ | .handlerCrashed q c => q = p ∧ c = b
  | _ => False

namespace Scene

variable {a b : Scene} {asked : Batch Nat → DeliveryKind → Prop} {takes : Prop}

/-- What has happened is not forgotten. -/
theorem Turn.history_suffix (t : Turn asked takes a b) : a.history <:+ b.history := by
  cases t with
  | tell | accept | close | appear | stop | take | serve => exact List.suffix_cons _ _
  | join | start | wake | standInLine | findNothing | sleep | handBack | ask | depart =>
    exact List.suffix_rfl

/-- Who may ask for the end of the worker asks for one that was started. -/
theorem Turn.started_of_unjoined (t : Turn asked takes a b)
    (h : a.queue.unjoined = true → a.queue.started = true) :
    b.queue.unjoined = true → b.queue.started = true := by
  cases t with
  | join => exact nofun
  | @accept q _ _ batch =>
    unfold Queue.enqueue
    split <;> exact h
  | start hc hs => simp [Queue.start, hc, hs]
  | tell | close | appear | wake | standInLine | stop | take | findNothing | sleep | handBack
  | ask | serve | depart => exact h

theorem Turns.started_of_unjoined (t : Turns asked takes a b)
    (h : a.queue.unjoined = true → a.queue.started = true) :
    b.queue.unjoined = true → b.queue.started = true := by
  induction t with
  | refl => exact h
  | tail _ t ih => exact t.started_of_unjoined ih

/-- The worker gets to work only by taking a batch. -/
theorem Turn.busy_of_busy (t : Turn asked False a b) (hb : b.places .worker = .busy) :
    a.places .worker = .busy := by
  cases t with
  | tell | join | accept | close => exact hb
  | start | appear | wake | standInLine | stop | findNothing | sleep => simp at hb
  | take batch rest hp hg hbatch hc ht => exact ht.elim
  | handBack place hp => exact hp
  | @ask q P _ i batch kind => exact (worker_of_update_call P i (.asking batch kind)).symm.trans hb
  | @serve q P _ i => exact (worker_of_update_call P i .busy).symm.trans hb
  | @depart q P _ i => exact (worker_of_update_call P i .away).symm.trans hb

theorem Turns.busy_of_busy (t : Turns asked False a b) (hb : b.places .worker = .busy) :
    a.places .worker = .busy := by
  induction t with
  | refl => exact hb
  | tail _ t ih => exact ih (t.busy_of_busy hb)

theorem Turns.history_suffix (t : Turns asked takes a b) : a.history <:+ b.history := by
  induction t with
  | refl => exact List.suffix_rfl
  | tail _ t ih => exact ih.trans t.history_suffix

end Scene

namespace ScriptedQueue

variable {w u v : ScriptedQueue} {p : Party} {i : Nat} {run next : HandlerRun} {a : QueueAction}

theorem history_suffix_apply (hl : w.scene.Lawful) (a : QueueAction) :
    w.history <:+ (w.apply a).history :=
  (turns_apply_any hl a).history_suffix

theorem lawful_apply (hl : w.scene.Lawful) (a : QueueAction) : (w.apply a).scene.Lawful :=
  hl.turns (turns_apply_any hl a)

theorem orderly_apply (hl : w.scene.Lawful) (ho : w.scene.Orderly) (a : QueueAction) :
    (w.apply a).scene.Orderly :=
  ho.turns hl (turns_apply_any hl a)

theorem history_suffix_run (hl : w.scene.Lawful) (actions : List QueueAction) :
    w.history <:+ (w.run actions).history := by
  induction actions generalizing w with
  | nil => exact List.suffix_rfl
  | cons a rest ih => exact (history_suffix_apply hl a).trans (ih (lawful_apply hl a))

theorem apply_run_of_ready (h : w.ready p = true) : w.apply (.run p) = w.step p := if_pos h

theorem apply_run_of_waiting (h : w.ready p = false) : w.apply (.run p) = w := by
  simp [apply, h]

/-- A direct delivery that comes to the head of the line and finds the queue closed returns without
having begun. -/
theorem step_call_of_closed {b : Batch Nat} {kind : DeliveryKind}
    (hcall : w.calls[i]? = some (.inLine b kind)) (hc : w.queue.closed = true) :
    w.step (.call i) =
      { w with queue := w.queue.leave (.call i) }.setCall i (.returned (some false)) := by
  simp only [step, callStep, hcall, hc, if_true]

theorem place_worker_eq_inLine : w.place .worker = .inLine ↔ w.worker = .inLine := by
  cases hw : w.worker <;> simp [place, hw, WorkerPoint.place]

theorem delivery?_worker : w.delivery? .worker = some run ↔ w.worker = .delivering run := by
  cases hw : w.worker <;> simp [delivery?, hw]

theorem delivery?_call : w.delivery? (.call i) = some run ↔
    w.calls[i]? = some (.delivering run) := by
  constructor
  · exact call_of_delivery
  · intro hc
    simp only [delivery?, hc]

theorem delivery?_eq_none_of_place (h : w.place p ≠ .busy) : w.delivery? p = none :=
  Option.eq_none_iff_forall_ne_some.mpr fun run hd => h (place_eq_busy_iff.mpr ⟨run, hd⟩)

/-- A party with a delivery under way goes on when the handler does. -/
theorem ready_of_delivery (hd : w.delivery? p = some run) : w.ready p = w.handlerReady run := by
  cases p with
  | worker => simp only [ready, Queue.workerReady, delivery?_worker.mp hd]
  | call i => simp only [ready, delivery?_call.mp hd]

theorem delivery_unique {q : Party} (ho : w.scene.Orderly) (hp : w.delivery? p = some run)
    (hq : w.delivery? q = some next) : p = q :=
  ho.busy_unique (place_eq_busy_iff.mpr ⟨run, hp⟩) (place_eq_busy_iff.mpr ⟨next, hq⟩)

/-! ### One act -/

/-- What a delivery that goes on has become: it has done its first act. It waits for itself only if
the queue is open, and for the end of the worker only if it has called for a shutdown and is the
first who asks for that end; the worker itself does not. -/
theorem handlerStep_running (hs : w.handlerStep p run = (u, .running next)) :
    ∃ act, run.acts = act :: next.acts ∧ next.batch = run.batch ∧
      (next.wait = .itself → w.queue.closed = false) ∧
      (next.wait = .workerEnd → act = .shutdown ∧ p ≠ .worker ∧ w.outOfReach = false ∧
        w.queue.unjoined = true) := by
  obtain ⟨v, hqueue, hreach, hstep⟩ := exists_handlerStep w p run
  rw [hs] at hstep
  cases hacts : run.acts with
  | nil => simp [hacts] at hstep
  | cons act rest =>
    refine ⟨act, ?_⟩
    rw [← hqueue, ← hreach]
    simp only [hacts, handlerAct] at hstep
    -- only a delivery lets the handler wait for itself, and only a shutdown for the worker
    cases act with
    | crash => simp at hstep
    | sleep | hold => simp_all
    | enqueue | start | close | deliver => grind
    | shutdown =>
      have hjoin : (v.close.queue.join).2 = v.queue.unjoined := rfl
      grind

/-! ### What the others do -/

theorem worker_callStep (hs : w.queue.started = true) (i : Nat) :
    (w.callStep i).worker = w.worker := by
  unfold callStep
  dsimp only
  split
  · split <;> rfl
  · rename_i run _
    have hhandles : Handles (fun _ _ => True) True w (w.handlerStep (.call i) run).1 :=
      handles_handlerStep w (.call i) run
    have hworker := (hhandles.worker hs).1
    rcases hstep : w.handlerStep (.call i) run with ⟨u, progress⟩
    rw [hstep] at hworker
    cases progress <;> exact hworker
  · unfold learnEnd
    split <;> rfl
  · rfl

/-- A worker that was started goes on by itself, or is released. -/
theorem worker_apply_of_other (hs : w.queue.started = true) (hrun : a ≠ .run .worker)
    (hrel : ∀ acts, a ≠ .release acts) : (w.apply a).worker = w.worker := by
  cases a with
  | run q =>
    simp only [apply]
    split
    · cases q with
      | worker => exact absurd rfl hrun
      | call i => exact worker_callStep hs i
    · rfl
  | elapse | close => rfl
  | enqueue b =>
    have hhandles : Handles (fun _ _ => True) True w (w.enqueue b).1 := handles_enqueue w b
    exact (hhandles.worker hs).1
  | start =>
    have hhandles : Handles (fun _ _ => True) True w w.start.1 := handles_start w
    exact (hhandles.worker hs).1
  | deliverNow b kind =>
    cases hc : w.queue.closed <;> simp [apply, deliverNow, Queue.ask, addCall, hc]
  | shutdown =>
    cases hu : w.queue.unjoined <;>
      simp [apply, shutdown, Queue.join, addCall, close, Queue.close, note, hu]
  | release acts => exact absurd rfl (hrel acts)

/-- A delivery goes on by its own party, or is released. -/
theorem delivery?_of_other (hl : w.scene.Lawful) (hrun : a ≠ .run p)
    (hrel : ∀ acts, a ≠ .release acts) : (w.apply a).delivery? p = w.delivery? p := by
  cases p with
  | worker =>
    cases hs : w.queue.started with
    | true => simp only [delivery?, worker_apply_of_other hs hrun hrel]
    | false =>
      -- a start may change the worker here, but gives it no delivery
      have hturns : Scene.Turns (fun _ _ => True) False w.scene (w.apply a).scene :=
        turns_apply hl (fun _ _ _ => trivial) fun h => absurd h hrun
      have hbefore : w.place .worker ≠ .busy := by
        rw [show w.place .worker = .away from hl.started.mp hs]
        exact Place.noConfusion
      have hafter : (w.apply a).place .worker ≠ .busy := mt hturns.busy_of_busy hbefore
      rw [delivery?_eq_none_of_place hbefore, delivery?_eq_none_of_place hafter]
  | call i =>
    rcases calls_apply w hrel with hcalls | ⟨j, d, rfl, hcalls⟩ | ⟨d, hcalls, hd⟩
    · simp only [delivery?, hcalls]
    · have hne : j ≠ i := by
        rintro rfl
        exact hrun rfl
      simp only [delivery?, hcalls, List.getElem?_set_ne hne]
    · rcases Nat.lt_trichotomy i w.calls.length with hi | rfl | hi
      · simp only [delivery?, hcalls, List.getElem?_append_left hi]
      · cases d <;> simp_all [delivery?, QueueCall.place]
      · have hlen : (w.calls ++ [d]).length ≤ i := by
          rw [List.length_append, List.length_singleton]
          exact hi
        simp only [delivery?, hcalls, List.getElem?_eq_none hlen,
          List.getElem?_eq_none (Nat.le_of_lt hi)]

/-- A call that has no delivery under way goes on by itself. -/
theorem getElem?_calls_of_idle {c : QueueCall} (hcall : w.calls[i]? = some c)
    (hidle : ∀ run, c ≠ .delivering run) (hrun : a ≠ .run (.call i)) :
    (w.apply a).calls[i]? = some c := by
  by_cases hrel : ∃ acts, a = .release acts
  · obtain ⟨acts, rfl⟩ := hrel
    rcases getElem?_calls_release acts hcall with hsame | ⟨held, next, hheld, -⟩
    · exact hsame
    · exact absurd hheld (hidle held)
  · exact getElem?_calls_of_other hcall hrun (not_exists.mp hrel)

/-! ### A release -/

/-- A release leaves a delivery as it is, or lets it go on with the given acts. -/
theorem delivery?_release (hd : w.delivery? p = some run) (acts : List HandlerAct) :
    (w.release acts).1.delivery? p = some run ∨
      ∃ next, run.released? acts = some next ∧ (w.release acts).1.delivery? p = some next := by
  cases p with
  | worker =>
    have hw := delivery?_worker.mp hd
    cases hnext : run.released? acts with
    | some next => simp [release, delivery?, hw, hnext]
    | none =>
      refine .inl ?_
      simp only [release, hw, hnext]
      split
      · rfl
      · exact hd
  | call i =>
    rcases getElem?_calls_release acts (delivery?_call.mp hd) with hsame |
      ⟨held, next, hheld, hnext, hgoes⟩
    · exact .inl (delivery?_call.mpr hsame)
    · obtain rfl := QueueCall.delivering.inj hheld
      exact .inr ⟨next, hnext, delivery?_call.mpr hgoes⟩

theorem exists_releaseCalls (acts : List HandlerAct) {calls : List QueueCall}
    (hc : .delivering run ∈ calls) (hwait : run.wait = .release) :
    ∃ calls', releaseCalls acts calls = some calls' := by
  have hnext : run.released? acts = some { run with acts := acts, wait := .nothing } :=
    released?_eq_some.mpr ⟨hwait, rfl⟩
  induction calls with
  | nil => cases hc
  | cons c rest ih =>
    rcases List.mem_cons.mp hc with rfl | hmem
    · simp only [releaseCalls, hnext]
      exact ⟨_, rfl⟩
    · obtain ⟨rest', hrest⟩ := ih hmem
      cases c with
      | delivering other =>
        simp only [releaseCalls, hrest]
        split <;> exact ⟨_, rfl⟩
      | inLine | joining | returned | crashed =>
        simp only [releaseCalls, hrest]
        exact ⟨_, rfl⟩

/-- The delivery that is held is the one that is released, as no other is under way. -/
theorem delivery?_release_of_held (ho : w.scene.Orderly) (hd : w.delivery? p = some run)
    (hwait : run.wait = .release) (acts : List HandlerAct) :
    (w.release acts).1.delivery? p = some { run with acts := acts, wait := .nothing } := by
  have hnext : run.released? acts = some { run with acts := acts, wait := .nothing } :=
    released?_eq_some.mpr ⟨hwait, rfl⟩
  cases p with
  | worker => simp only [release, delivery?_worker.mp hd, hnext, delivery?]
  | call i =>
    have hcall := delivery?_call.mp hd
    -- a release asks the worker first
    have hidle (held : HandlerRun) : w.worker ≠ .delivering held := by
      intro hw
      exact absurd (delivery_unique ho (delivery?_worker.mpr hw) hd) Party.noConfusion
    obtain ⟨calls, hr⟩ := exists_releaseCalls acts (List.mem_of_getElem? hcall) hwait
    have hrelease : (w.release acts).1 = { w with calls := calls } := by
      unfold release
      cases hw : w.worker with
      | delivering held => exact absurd hw (hidle held)
      | absent | fresh | inLine | asleep | stopped | crashed => simp only [hr]
    obtain ⟨j, held, next, hheld, hreleased, rfl⟩ := exists_of_releaseCalls hr
    -- whichever call is released, it has the one delivery under way
    obtain rfl : j = i := Party.call.inj (delivery_unique ho (delivery?_call.mpr hheld) hd)
    obtain rfl : held = run := QueueCall.delivering.inj (Option.some.inj (hheld.symm.trans hcall))
    obtain rfl := Option.some.inj (hreleased.symm.trans hnext)
    have hlt : j < w.calls.length := (List.getElem?_eq_some_iff.mp hheld).1
    rw [hrelease]
    exact delivery?_call.mpr (List.getElem?_set_self hlt)

/-! ### The end of a delivery -/

/-- Between two moments something of the given kind has happened. -/
def Happened (P : QueueEvent → Prop) (w v : ScriptedQueue) : Prop :=
  ∃ since e, v.history = since ++ w.history ∧ e ∈ since ∧ P e

variable {P : QueueEvent → Prop}

theorem Happened.of_later (h : Happened P w u) (hv : u.history <:+ v.history) :
    Happened P w v := by
  obtain ⟨since, e, hsince, he, hP⟩ := h
  obtain ⟨later, hlater⟩ := hv
  refine ⟨later ++ since, e, ?_, List.mem_append_right later he, hP⟩
  rw [← hlater, hsince, List.append_assoc]

theorem Happened.of_earlier (h : Happened P u v) (hw : w.history <:+ u.history) :
    Happened P w v := by
  obtain ⟨since, e, hsince, he, hP⟩ := h
  obtain ⟨before, hbefore⟩ := hw
  refine ⟨since ++ before, e, ?_, List.mem_append_left before he, hP⟩
  rw [hsince, ← hbefore, List.append_assoc]

theorem happened_note {e : QueueEvent} (hw : w.history <:+ u.history) (he : P e) :
    Happened P w (u.note e) := by
  obtain ⟨since, hsince⟩ := hw
  exact ⟨e :: since, e, congrArg (e :: ·) hsince.symm, List.mem_cons_self, he⟩

theorem history_suffix_workerTurn (w : ScriptedQueue) : w.history <:+ w.workerTurn.history := by
  unfold workerTurn
  split
  · exact List.suffix_rfl
  · exact List.suffix_cons _ _

theorem history_suffix_handlerStep (w : ScriptedQueue) (p : Party) (run : HandlerRun) :
    w.history <:+ (w.handlerStep p run).1.history :=
  have hhandles : Handles (fun _ _ => True) True w (w.handlerStep p run).1 :=
    handles_handlerStep w p run
  hhandles.turns.history_suffix

theorem delivery?_workerTurn (w : ScriptedQueue) : w.workerTurn.delivery? .worker = none := by
  unfold workerTurn
  split <;> rfl

/-- A delivery that does not go on has come to its end, which is told. -/
theorem step_of_over {progress : Progress HandlerRun (Option Bool)}
    (hd : w.delivery? p = some run) (hs : w.handlerStep p run = (u, progress))
    (hover : ∀ next, progress ≠ .running next) :
    (w.step p).delivery? p = none ∧ Happened (QueueEvent.Ends p run.batch) w (w.step p) := by
  have hsuffix := history_suffix_handlerStep w p run
  rw [hs] at hsuffix
  cases p with
  | worker =>
    have hw := delivery?_worker.mp hd
    simp only [step, workerStep, hw, hs]
    cases progress with
    | running next => exact absurd rfl (hover next)
    | done answer =>
      have hends : QueueEvent.Ends .worker run.batch (.handled .worker run.batch answer) :=
        ⟨rfl, rfl⟩
      refine ⟨delivery?_workerTurn _, (happened_note hsuffix hends).of_later ?_⟩
      exact history_suffix_workerTurn (note { u with queue := u.queue.leave .worker }
        (.handled .worker run.batch answer))
    | crashed =>
      have hends : QueueEvent.Ends .worker run.batch (.handlerCrashed .worker run.batch) :=
        ⟨rfl, rfl⟩
      exact ⟨rfl, happened_note hsuffix hends⟩
  | call i =>
    have hcall := delivery?_call.mp hd
    have hcalls := calls_handlerStep w (.call i) run
    rw [hs] at hcalls
    have hi : i < u.calls.length := by
      rw [hcalls]
      exact (List.getElem?_eq_some_iff.mp hcall).1
    simp only [step, callStep, hcall, hs]
    cases progress with
    | running next => exact absurd rfl (hover next)
    | done answer =>
      refine ⟨by simp [delivery?, ScriptedQueue.note, setCall, hi], ?_⟩
      have hends : QueueEvent.Ends (.call i) run.batch (.handled (.call i) run.batch answer) :=
        ⟨rfl, rfl⟩
      exact happened_note hsuffix hends
    | crashed =>
      refine ⟨by simp [delivery?, ScriptedQueue.note, setCall, hi], ?_⟩
      have hends : QueueEvent.Ends (.call i) run.batch (.handlerCrashed (.call i) run.batch) :=
        ⟨rfl, rfl⟩
      exact happened_note hsuffix hends

/-- What becomes of a delivery in an action: nothing, a release lets it go on, or its own party does
its next act or brings it to its end. -/
theorem delivery_cases (hl : w.scene.Lawful) (hd : w.delivery? p = some run) (a : QueueAction) :
    (w.apply a).delivery? p = some run ∨
      (∃ acts next, a = .release acts ∧ run.released? acts = some next ∧
        (w.apply a).delivery? p = some next) ∨
      (a = .run p ∧ w.ready p = true ∧ ∃ u next, w.handlerStep p run = (u, .running next) ∧
        (w.apply a).queue = u.queue ∧ (w.apply a).delivery? p = some next) ∨
      (a = .run p ∧ (w.apply a).delivery? p = none ∧
        Happened (QueueEvent.Ends p run.batch) w (w.apply a)) := by
  by_cases hrun : a = .run p
  · subst hrun
    cases hready : w.ready p with
    | false =>
      rw [apply_run_of_waiting hready]
      exact .inl hd
    | true =>
      rw [apply_run_of_ready hready]
      rcases hs : w.handlerStep p run with ⟨u, progress⟩
      cases progress with
      | running next =>
        obtain ⟨hqueue, hgoes⟩ := step_of_running hd hs
        exact .inr (.inr (.inl ⟨rfl, rfl, u, next, rfl, hqueue, hgoes⟩))
      | done | crashed =>
        obtain ⟨hnone, hended⟩ := step_of_over hd hs nofun
        exact .inr (.inr (.inr ⟨rfl, hnone, hended⟩))
  cases a with
  | release acts =>
    rcases delivery?_release hd acts with hsame | ⟨next, hnext, hgoes⟩
    · exact .inl hsame
    · exact .inr (.inl ⟨acts, next, rfl, hnext, hgoes⟩)
  | run | elapse | enqueue | start | deliverNow | close | shutdown =>
    exact .inl ((delivery?_of_other hl hrun nofun).trans hd)

theorem wait_of_workerStep (hnone : w.delivery? .worker = none)
    (hd : w.workerStep.delivery? .worker = some run) : run.wait = .nothing := by
  unfold workerStep at hd
  split at hd
  · cases (delivery?_workerTurn _).symm.trans hd
  · split at hd
    · obtain rfl := Option.some.inj hd
      rfl
    · cases hd
  · rename_i other hw
    cases hnone.symm.trans (delivery?_worker.mpr hw)
  · split at hd
    · cases hd
    · cases (delivery?_workerTurn _).symm.trans hd
  · cases hnone.symm.trans hd
  · cases hnone.symm.trans hd
  · cases hnone.symm.trans hd

theorem wait_of_callStep (hnone : w.delivery? (.call i) = none)
    (hd : (w.callStep i).delivery? (.call i) = some run) : run.wait = .nothing := by
  have hafter := delivery?_call.mp hd
  cases hcall : w.calls[i]? with
  | none =>
    simp only [callStep, hcall] at hafter
    cases hafter
  | some c =>
    have hi : i < w.calls.length := (List.getElem?_eq_some_iff.mp hcall).1
    simp only [callStep, hcall] at hafter
    cases c with
    | inLine b kind =>
      dsimp only at hafter
      split at hafter
      · simp [setCall, hi] at hafter
      · obtain rfl : (w.beginHandling (.call i) b kind).2 = run := by
          simpa [setCall, beginHandling, note, hi] using hafter
        rfl
    | delivering other => cases hnone.symm.trans (delivery?_call.mpr hcall)
    | joining =>
      have hcalls : w.learnEnd.calls = w.calls := by
        unfold learnEnd
        split <;> rfl
      simp [setCall, hcalls, hi] at hafter
    | returned | crashed => cases hcall.symm.trans hafter

/-- A delivery that has just begun waits for nothing yet. -/
theorem wait_of_begun (hl : w.scene.Lawful) (hnone : w.delivery? p = none)
    (hd : (w.apply a).delivery? p = some run) : run.wait = .nothing := by
  by_cases hrun : a = .run p
  · subst hrun
    cases hready : w.ready p with
    | false =>
      rw [apply_run_of_waiting hready, hnone] at hd
      cases hd
    | true =>
      rw [apply_run_of_ready hready] at hd
      cases p with
      | worker => exact wait_of_workerStep hnone hd
      | call i => exact wait_of_callStep hnone hd
  cases a with
  | release acts =>
    -- a release leaves everybody where he stands
    have hbusy : w.place p = .busy :=
      (congrFun (congrArg Scene.places (scene_release w acts)) p).symm.trans
        (place_eq_busy_iff.mpr ⟨run, hd⟩)
    obtain ⟨other, hother⟩ := place_eq_busy_iff.mp hbusy
    cases hnone.symm.trans hother
  | run | elapse | enqueue | start | deliverNow | close | shutdown =>
    cases hnone.symm.trans ((delivery?_of_other hl hrun nofun).symm.trans hd)

/-! ### The wait for the end of the worker -/

/-- A worker that was started remains so. -/
theorem started_apply_of_started (hs : w.queue.started = true) (a : QueueAction) :
    (w.apply a).queue.started = true := by
  have hcount := started_apply w a
  rw [hs, Bool.toNat_true] at hcount
  cases hafter : (w.apply a).queue.started with
  | true => rfl
  | false =>
    rw [hafter, Bool.toNat_false] at hcount
    omega

/-- A delivery that comes to wait for the end of the worker has called for a shutdown and is the
first that asks for that end. -/
theorem shutdownCaller?_of_waiting (hl : w.scene.Lawful)
    (hd : (w.apply a).delivery? p = some next) (hwait : next.wait = .workerEnd)
    (hnew : w.delivery? p ≠ some next) :
    a = .run p ∧ p ≠ .worker ∧ w.shutdownCaller? a = some p ∧ w.queue.unjoined = true := by
  cases hbefore : w.delivery? p with
  | none =>
    have hnothing := wait_of_begun hl hbefore hd
    rw [hwait] at hnothing
    cases hnothing
  | some run =>
    rcases delivery_cases hl hbefore a with hsame | ⟨acts, next', -, hnext, hgoes⟩ |
      ⟨rfl, hready, u, next', hs, -, hgoes⟩ | ⟨-, hnone, -⟩
    · exact absurd (hbefore.trans (hsame.symm.trans hd)) hnew
    · obtain rfl := Option.some.inj (hgoes.symm.trans hd)
      obtain ⟨-, rfl⟩ := released?_eq_some.mp hnext
      cases hwait
    · obtain rfl := Option.some.inj (hgoes.symm.trans hd)
      obtain ⟨act, hacts, -, -, hfirst⟩ := handlerStep_running hs
      obtain ⟨rfl, hp, hreach, hu⟩ := hfirst hwait
      refine ⟨rfl, hp, ?_, hu⟩
      simp [shutdownCaller?, nextAct?, hready, hbefore, hacts, hreach]
    · cases hnone.symm.trans hd

/-- What holds of a queue in every run. Whoever may ask for the end of the worker asks for one that
was started; whoever waits for it in a handler is not the worker, and the queue has closed. -/
structure Regular (w : ScriptedQueue) : Prop where
  lawful : w.scene.Lawful
  orderly : w.scene.Orderly
  asks : w.queue.unjoined = true → w.queue.started = true
  awaits : ∀ p run, w.delivery? p = some run → run.wait = .workerEnd →
    p ≠ .worker ∧ w.queue.closed = true ∧ w.queue.started = true

theorem Regular.apply (h : w.Regular) (a : QueueAction) : (w.apply a).Regular where
  lawful := lawful_apply h.lawful a
  orderly := orderly_apply h.lawful h.orderly a
  asks := (turns_apply_any h.lawful a).started_of_unjoined h.asks
  awaits := by
    intro p next hd hwait
    by_cases hold : w.delivery? p = some next
    · obtain ⟨hp, hclosed, hstarted⟩ := h.awaits p next hold hwait
      exact ⟨hp, (winds_apply h.lawful hclosed a).2.closed, started_apply_of_started hstarted a⟩
    · obtain ⟨-, hp, hcall, hunjoined⟩ := shutdownCaller?_of_waiting h.lawful hd hwait hold
      exact ⟨hp, (shutdown_apply hcall).1, started_apply_of_started (h.asks hunjoined) a⟩

theorem Regular.stays (h : w.Regular) (actions : List QueueAction) : (w.run actions).Regular :=
  run_induction (fun _ a _ h => h.apply a) h

theorem regular_run (n : Nat) (script : List (List HandlerAct)) (actions : List QueueAction) :
    ((new n script).run actions).Regular := by
  obtain ⟨hl, ho⟩ : (new n script).scene.Lawful ∧ (new n script).scene.Orderly :=
    orderly_run n script []
  refine Regular.stays ⟨hl, ho, nofun, fun p run hd => ?_⟩ actions
  cases p <;> cases hd

end ScriptedQueue

end Multicast
