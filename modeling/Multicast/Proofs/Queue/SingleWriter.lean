import Multicast.Proofs.Queue.GateLine

/-! Who writes to a subscriber. At most one delivery is under way at a time; `start` succeeds at
most once, so that there is one worker at most, and what is handed over as live comes from that
worker or from a direct delivery that was asked for as a live one. -/

namespace Multicast

open Function (update)

namespace Scene

variable {a b : Scene} {asked : Batch Nat → DeliveryKind → Prop} {takes : Prop}

/-- The direct deliveries that wait were asked for, and so were the live ones that the worker has
not made. -/
structure Authorized (asked : Batch Nat → DeliveryKind → Prop) (a : Scene) : Prop where
  waiting : ∀ p batch kind, a.places p = .asking batch kind → asked batch kind
  live : ∀ p batch, .handling p batch .live ∈ a.history → p = .worker ∨ asked batch .live

theorem Authorized.waiting_update (h : a.Authorized asked) {p : Party} {place : Place}
    (hplace : ∀ batch kind, place = .asking batch kind → asked batch kind) (q : Party)
    (batch : Batch Nat) (kind : DeliveryKind)
    (hq : update a.places p place q = .asking batch kind) : asked batch kind := by
  by_cases hqp : q = p
  · rw [hqp, Function.update_self] at hq
    exact hplace batch kind hq
  · rw [Function.update_of_ne hqp] at hq
    exact h.waiting q batch kind hq

theorem Authorized.live_cons (h : a.Authorized asked) {e : QueueEvent}
    (he : ∀ p batch, e = .handling p batch .live → p = .worker ∨ asked batch .live) (p : Party)
    (batch : Batch Nat) (hmem : .handling p batch .live ∈ e :: a.history) :
    p = .worker ∨ asked batch .live := by
  rcases List.mem_cons.mp hmem with heq | hmem
  · exact he p batch heq.symm
  · exact h.live p batch hmem

theorem Authorized.turn (h : a.Authorized asked) (t : Turn asked takes a b) :
    b.Authorized asked := by
  cases t with
  | tell e he =>
    refine ⟨h.waiting, h.live_cons ?_⟩
    rintro p batch rfl
    exact he.elim
  | join => exact ⟨h.waiting, h.live⟩
  | accept | close => exact ⟨h.waiting, h.live_cons nofun⟩
  | start | wake | standInLine | findNothing | sleep | depart =>
    exact ⟨h.waiting_update nofun, h.live⟩
  | appear | stop => exact ⟨h.waiting_update nofun, h.live_cons nofun⟩
  | take batch =>
    refine ⟨h.waiting_update nofun, h.live_cons ?_⟩
    rintro p batch' ⟨⟩
    exact .inl rfl
  | handBack place hp hplace =>
    refine ⟨h.waiting_update ?_, h.live⟩
    rcases hplace with rfl | rfl <;> exact nofun
  | ask i batch kind hp hc ha =>
    refine ⟨h.waiting_update ?_, h.live⟩
    rintro batch' kind' ⟨⟩
    exact ha
  | serve i batch kind hp =>
    refine ⟨h.waiting_update nofun, h.live_cons ?_⟩
    rintro p batch' ⟨⟩
    exact .inr (h.waiting _ _ _ hp)

/-- One worker at most has come, and none before one was started and has run. -/
structure SoleWorker (a : Scene) : Prop where
  before : a.places .worker = .away ∨ a.places .worker = .fresh →
    a.history.count .workerStarted = 0
  after : a.history.count .workerStarted ≤ 1

theorem SoleWorker.of_same (h : a.SoleWorker)
    (hh : b.history.count .workerStarted = a.history.count .workerStarted)
    (hp : b.places .worker = a.places .worker) : b.SoleWorker := by
  refine ⟨?_, ?_⟩
  · rw [hh, hp]
    exact h.before
  · rw [hh]
    exact h.after

/-- A worker that has run goes on to another place. -/
theorem SoleWorker.of_move (h : a.SoleWorker)
    (hh : b.history.count .workerStarted = a.history.count .workerStarted)
    (haway : b.places .worker ≠ .away) (hfresh : b.places .worker ≠ .fresh) : b.SoleWorker :=
  ⟨fun hp => (hp.elim haway hfresh).elim, hh ▸ h.after⟩

theorem SoleWorker.turn (h : a.SoleWorker) (hl : a.Lawful) (t : Turn asked takes a b) :
    b.SoleWorker := by
  cases t with
  | tell e he =>
    refine h.of_same (List.count_cons_of_ne ?_) rfl
    rintro rfl
    exact he
  | join => exact h.of_same rfl rfl
  | accept | close => exact h.of_same (List.count_cons_of_ne (by simp)) rfl
  | start hc hs => exact ⟨fun _ => h.before (.inl (hl.started.mp hs)), h.after⟩
  | appear hp =>
    refine ⟨by simp, ?_⟩
    rw [List.count_cons_self, h.before (.inr hp)]
  | wake | standInLine | findNothing | sleep => exact h.of_move rfl (by simp) (by simp)
  | stop | take => exact h.of_move (List.count_cons_of_ne (by simp)) (by simp) (by simp)
  | handBack place hp hplace =>
    refine h.of_move rfl ?_ ?_ <;> rcases hplace with rfl | rfl <;> simp
  | @ask q P _ i batch kind =>
    exact h.of_same rfl (worker_of_update_call P i (.asking batch kind))
  | @serve q P _ i =>
    exact h.of_same (List.count_cons_of_ne (by simp)) (worker_of_update_call P i .busy)
  | @depart q P _ i => exact h.of_same rfl (worker_of_update_call P i .away)

/-- Where no worker was started, none has come. -/
theorem SoleWorker.count_le (h : a.SoleWorker) (hl : a.Lawful) :
    a.history.count .workerStarted ≤ a.queue.started.toNat := by
  cases hs : a.queue.started with
  | true => exact h.after
  | false => exact (h.before (.inl (hl.started.mp hs))).le

end Scene

namespace ScriptedQueue

variable {w : ScriptedQueue}

/-! ### The answers of `start` -/

/-- What the delivery of a party does next, if it need not wait. -/
def nextAct? (w : ScriptedQueue) (p : Party) : Option HandlerAct :=
  if w.ready p then (w.delivery? p).bind (·.acts.head?) else none

/-- The answer that `start` gives in an action, to a caller or to the handler, if it is called. -/
def startAnswer? (w : ScriptedQueue) : QueueAction → Option Bool
  | .start => some w.start.2
  | .run p =>
    if w.nextAct? p = some .start then ((w.step p).delivery? p).bind HandlerRun.note else none
  | _ => none

/-- All the answers that `start` gives in a list of actions, in the order in which it is called. -/
def startAnswers (w : ScriptedQueue) : List QueueAction → List Bool
  | [] => []
  | a :: rest => (w.startAnswer? a).toList ++ (w.apply a).startAnswers rest

theorem started_start (w : ScriptedQueue) :
    w.start.1.queue.started.toNat = w.queue.started.toNat + [w.start.2].count true := by
  cases hc : w.queue.closed <;> cases hs : w.queue.started <;> simp [start, Queue.start, hc, hs]

theorem started_enqueue (w : ScriptedQueue) (b : Batch Nat) :
    (w.enqueue b).1.queue.started = w.queue.started := by
  cases hc : w.queue.closed <;> simp [enqueue, Queue.enqueue, hc, note]

/-- The wait of a handler ends without a change of the queue. -/
theorem exists_handlerStep (w : ScriptedQueue) (p : Party) (run : HandlerRun) :
    ∃ u : ScriptedQueue, u.queue = w.queue ∧ u.outOfReach = w.outOfReach ∧
      w.handlerStep p run = match run.acts with
        | [] => (u, .done run.note)
        | act :: rest => u.handlerAct p run act rest := by
  have hlearn : w.learnEnd.queue = w.queue ∧ w.learnEnd.outOfReach = w.outOfReach := by
    unfold learnEnd
    split <;> exact ⟨rfl, rfl⟩
  unfold handlerStep
  cases run.wait with
  | workerEnd => exact ⟨w.learnEnd, hlearn.1, hlearn.2, rfl⟩
  | nothing | moment | release | itself => exact ⟨w, rfl, rfl, rfl⟩

/-- Of what a handler does only a `start` starts the worker. -/
theorem started_handlerAct (p : Party) (run : HandlerRun) {act : HandlerAct}
    (rest : List HandlerAct) (hne : act ≠ .start) :
    (w.handlerAct p run act rest).1.queue.started = w.queue.started := by
  unfold handlerAct
  cases act with
  | sleep | hold | crash => rfl
  | enqueue b =>
    dsimp only
    split
    · rfl
    · exact started_enqueue w b
  | start => exact absurd rfl hne
  | close =>
    dsimp only
    split <;> rfl
  | shutdown =>
    dsimp only
    split
    · rfl
    · split <;> rfl
  | deliver =>
    dsimp only
    split
    · rfl
    · split <;> rfl

theorem started_handlerStep (p : Party) {run : HandlerRun} (hne : run.acts.head? ≠ some .start) :
    (w.handlerStep p run).1.queue.started = w.queue.started := by
  obtain ⟨u, hu, -, hstep⟩ := exists_handlerStep w p run
  rw [hstep, ← hu]
  cases hacts : run.acts with
  | nil => rfl
  | cons act rest =>
    apply started_handlerAct
    rintro rfl
    exact hne (by rw [hacts]; rfl)

/-- A `start` of a handler goes on with the answer; a handler that cannot reach the queue gets
none. -/
theorem handlerStep_start (p : Party) {run : HandlerRun} (hacts : run.acts.head? = some .start) :
    ∃ u next, w.handlerStep p run = (u, .running next) ∧
      u.queue.started.toNat = w.queue.started.toNat + next.note.toList.count true := by
  obtain ⟨rest, hacts⟩ := List.head?_eq_some_iff.mp hacts
  obtain ⟨u, hu, -, hstep⟩ := exists_handlerStep w p run
  simp only [hacts] at hstep
  rw [hstep, ← hu]
  unfold handlerAct
  cases u.outOfReach with
  | true => exact ⟨u, _, rfl, rfl⟩
  | false => exact ⟨u.start.1, _, rfl, started_start u⟩

/-- A delivery that goes on is under way still. -/
theorem step_of_running {u : ScriptedQueue} {p : Party} {run next : HandlerRun}
    (hd : w.delivery? p = some run) (hs : w.handlerStep p run = (u, .running next)) :
    (w.step p).queue = u.queue ∧ (w.step p).delivery? p = some next := by
  cases p with
  | worker =>
    cases hw : w.worker with
    | delivering run' =>
      obtain rfl : run' = run := by simpa [delivery?, hw] using hd
      simp [step, workerStep, hw, hs, delivery?]
    | absent | fresh | inLine | asleep | stopped | crashed => simp [delivery?, hw] at hd
  | call i =>
    have hcalls : u.calls = w.calls := by
      have hhandles : Handles (fun _ _ => True) True w (w.handlerStep (.call i) run).1 :=
        handles_handlerStep w (.call i) run
      rw [hs] at hhandles
      exact hhandles.calls
    cases hc : w.calls[i]? with
    | none => simp [delivery?, hc] at hd
    | some c =>
      have hi : i < u.calls.length := by
        rw [hcalls]
        exact (List.getElem?_eq_some_iff.mp hc).1
      cases c with
      | delivering run' =>
        obtain rfl : run' = run := by simpa [delivery?, hc] using hd
        simp [step, callStep, hc, hs, delivery?, setCall, hi]
      | inLine | joining | returned | crashed => simp [delivery?, hc] at hd

theorem started_workerTurn (w : ScriptedQueue) :
    w.workerTurn.queue.started = w.queue.started := by
  cases hc : w.queue.closed <;> simp [workerTurn, Queue.workerTurn, Queue.ask, hc, note]

theorem started_workerStep (hne : ∀ run, w.worker = .delivering run →
    run.acts.head? ≠ some .start) : w.workerStep.queue.started = w.queue.started := by
  cases hw : w.worker with
  | fresh =>
    simp only [workerStep, hw]
    exact started_workerTurn _
  | inLine =>
    simp only [workerStep, hw, Queue.takeNext]
    cases w.queue.heap.pop? with
    | none => rfl
    | some => cases w.queue.closed <;> rfl
  | delivering run =>
    have hstep := started_handlerStep (w := w) .worker (hne run hw)
    rcases hs : w.handlerStep .worker run with ⟨u, progress⟩
    rw [hs] at hstep
    simp only [workerStep, hw, hs]
    cases progress with
    | running | crashed => exact hstep
    | done => exact (started_workerTurn _).trans hstep
  | asleep =>
    simp only [workerStep, hw]
    split
    · rfl
    · exact started_workerTurn _
  | absent | stopped | crashed => simp only [workerStep, hw]

theorem started_callStep {i : Nat} (hne : ∀ run, w.calls[i]? = some (.delivering run) →
    run.acts.head? ≠ some .start) : (w.callStep i).queue.started = w.queue.started := by
  unfold callStep
  dsimp only
  split
  · split <;> rfl
  · rename_i run hc
    have hstep := started_handlerStep (w := w) (.call i) (hne run hc)
    rcases hs : w.handlerStep (.call i) run with ⟨u, progress⟩
    rw [hs] at hstep
    cases progress <;> exact hstep
  · unfold learnEnd
    split <;> rfl
  · rfl

theorem started_step {p : Party} (hready : w.ready p = true) :
    (w.step p).queue.started.toNat =
      w.queue.started.toNat + (w.startAnswer? (.run p)).toList.count true := by
  by_cases hstart : w.nextAct? p = some .start
  · have hnext : (w.delivery? p).bind (·.acts.head?) = some .start := by
      simpa only [nextAct?, hready, if_true] using hstart
    obtain ⟨run, hd, hacts⟩ := Option.bind_eq_some_iff.mp hnext
    obtain ⟨u, next, hs, hcount⟩ := handlerStep_start (w := w) p hacts
    obtain ⟨hqueue, hgoes⟩ := step_of_running hd hs
    simp only [startAnswer?, hstart, if_true, hgoes, Option.bind_some, hqueue, hcount]
  · have hne (run : HandlerRun) (hd : w.delivery? p = some run) :
        run.acts.head? ≠ some .start := by
      intro hacts
      exact hstart (by simp only [nextAct?, hready, if_true, hd, Option.bind_some, hacts])
    have hsame : (w.step p).queue.started = w.queue.started := by
      cases p with
      | worker => exact started_workerStep fun run hw => hne run (by simp only [delivery?, hw])
      | call i => exact started_callStep fun run hc => hne run (by simp only [delivery?, hc])
    simp [startAnswer?, hstart, hsame]

/-- The worker is started with the answer that it was, and only then. -/
theorem started_apply (w : ScriptedQueue) (a : QueueAction) :
    (w.apply a).queue.started.toNat =
      w.queue.started.toNat + (w.startAnswer? a).toList.count true := by
  cases a with
  | run p =>
    simp only [apply]
    split
    · rename_i hready
      exact started_step hready
    · rename_i hready
      simp [startAnswer?, nextAct?, hready]
  | start => exact started_start w
  | enqueue b => exact congrArg Bool.toNat (started_enqueue w b)
  | elapse | close => rfl
  | deliverNow b k =>
    cases hc : w.queue.closed <;>
      simp [apply, deliverNow, Queue.ask, hc, addCall, startAnswer?]
  | shutdown =>
    cases hu : w.queue.unjoined <;>
      simp [apply, shutdown, Queue.join, hu, addCall, startAnswer?, close, Queue.close, note]
  | release acts =>
    have hqueue : (w.release acts).1.queue = w.queue := congrArg Scene.queue (scene_release w acts)
    exact congrArg (Queue.started · |>.toNat) hqueue

theorem started_run (w : ScriptedQueue) (actions : List QueueAction) :
    (w.run actions).queue.started.toNat =
      w.queue.started.toNat + (w.startAnswers actions).count true := by
  induction actions generalizing w with
  | nil => rfl
  | cons a rest ih =>
    calc ((w.apply a).run rest).queue.started.toNat
        = (w.apply a).queue.started.toNat + ((w.apply a).startAnswers rest).count true := ih _
      _ = w.queue.started.toNat + (w.startAnswers (a :: rest)).count true := by
          rw [started_apply, startAnswers, List.count_append, Nat.add_assoc]

/-! ### Every run -/

theorem authorized_run (n : Nat) (script : List (List HandlerAct)) (actions : List QueueAction) :
    ((new n script).run actions).scene.Authorized fun b k => .deliverNow b k ∈ actions := by
  refine (run_scene_induction n script actions ?_ fun a b _ h t => h.turn t).2
  refine ⟨?_, nofun⟩
  intro p batch kind hp
  cases p <;> cases hp

theorem soleWorker_run (n : Nat) (script : List (List HandlerAct)) (actions : List QueueAction) :
    ((new n script).run actions).scene.SoleWorker :=
  (run_scene_induction n script actions ⟨fun _ => rfl, Nat.zero_le _⟩
    fun _ _ hl h t => h.turn hl t).2

/-- There is one writer at a time. In every run at most one delivery is under way; `start` succeeds
at most once, and no more workers come than it has started; and each live batch that reaches the
handler comes from the worker or from a direct delivery that was asked for with this batch as a live
one, so that all are the worker's where none was asked for like this. -/
theorem single_writer (n : Nat) (script : List (List HandlerAct)) (actions : List QueueAction) :
    let w := (new n script).run actions
    let answers := (new n script).startAnswers actions
    (∀ p q, w.delivery? p ≠ none → w.delivery? q ≠ none → p = q) ∧
      answers.count true ≤ 1 ∧
      w.history.count .workerStarted ≤ answers.count true ∧
      (∀ p b, .handling p b .live ∈ w.history →
        p = .worker ∨ .deliverNow b .live ∈ actions) ∧
      ((∀ b, .deliverNow b .live ∉ actions) →
        ∀ p b, .handling p b .live ∈ w.history → p = .worker) := by
  intro w answers
  obtain ⟨hl, ho⟩ : w.scene.Lawful ∧ w.scene.Orderly := orderly_run n script actions
  have hs : w.scene.SoleWorker := soleWorker_run n script actions
  have ha : w.scene.Authorized fun b k => .deliverNow b k ∈ actions :=
    authorized_run n script actions
  have hcount : w.queue.started.toNat = answers.count true :=
    (started_run (new n script) actions).trans (Nat.zero_add _)
  refine ⟨?_, ?_, ?_, ha.live, ?_⟩
  · intro p q hp hq
    obtain ⟨run, hp⟩ := Option.ne_none_iff_exists'.mp hp
    obtain ⟨run', hq⟩ := Option.ne_none_iff_exists'.mp hq
    exact ho.busy_unique (place_eq_busy_iff.mpr ⟨run, hp⟩) (place_eq_busy_iff.mpr ⟨run', hq⟩)
  · rw [← hcount]
    exact Bool.toNat_le w.queue.started
  · rw [← hcount]
    exact hs.count_le hl
  · intro hnone p b hmem
    exact (ha.live p b hmem).resolve_right (hnone b)

/-- A direct delivery may be asked for as a live one; it is then made without the worker, which was
never started. -/
theorem direct_live_is_not_the_workers :
    let w := (new 8 []).run [.deliverNow ⟨[⟨1, ""⟩]⟩ .live, .run (.call 0)]
    w.queue.started = false ∧ ¬ ∀ p b, .handling p b .live ∈ w.history → p = .worker := by
  intro w
  have hmem : .handling (.call 0) ⟨[⟨1, ""⟩]⟩ .live ∈ w.history := by decide +kernel
  refine ⟨by decide +kernel, ?_⟩
  intro hall
  cases hall _ _ hmem

end ScriptedQueue

end Multicast
