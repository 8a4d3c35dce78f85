import Multicast.Proofs.Queue.SingleWriter

/-! What a shutdown waits for. It closes the queue, after which no delivery begins. The first who
calls it is told of the worker, if there is one, and waits for its end; whoever comes later is told
of none and does not wait, also while the worker is still at work. -/

namespace Multicast

open Function (update)

/-- Whether a delivery begins with this event. -/
def QueueEvent.isHandling : QueueEvent → Bool
  | .handling _ _ _ => true
  | _ => false

/-- Whether a worker at this place was never started or has come to its end. -/
def Place.isGone : Place → Bool
  | .away | .stopped | .crashed => true
  | _ => false

/-- Whether a call waits for the end of the worker, itself or in its handler. -/
def QueueCall.awaitsEnd : QueueCall → Bool
  | .joining => true
  | .delivering run => decide (run.wait = .workerEnd)
  | _ => false

/-- The kind of the delivery that a call waits for or has under way. -/
def QueueCall.kind? : QueueCall → Option DeliveryKind
  | .inLine _ kind => some kind
  | .delivering run => some run.kind
  | _ => none

namespace Scene

variable {a b : Scene} {asked : Batch Nat → DeliveryKind → Prop} {takes : Prop}

/-- What a closed queue goes on to: it stays closed, no delivery begins, and a worker that is gone
does not come back. -/
structure Winds (a b : Scene) : Prop where
  closed : b.queue.closed = true
  begun : b.history.filter QueueEvent.isHandling = a.history.filter QueueEvent.isHandling
  gone : (a.places .worker).isGone = true → (b.places .worker).isGone = true

/-- A worker that has just moved was not gone. -/
theorem winds_of_move {place : Place} (hclosed : b.queue.closed = true)
    (hbegun : b.history.filter QueueEvent.isHandling = a.history.filter QueueEvent.isHandling)
    (hp : a.places .worker = place) (hplace : place.isGone = false) : Winds a b := by
  refine ⟨hclosed, hbegun, fun hgone => ?_⟩
  rw [hp, hplace] at hgone
  cases hgone

theorem Turn.winds (t : Turn asked takes a b) (hc : a.queue.closed = true) : Winds a b := by
  cases t with
  | @tell q P h e he =>
    refine ⟨hc, ?_, id⟩
    cases e with
    | accepted | discarded | handling | workerStarted => exact he.elim
    | handled | handlerCrashed | workerStopped | workerLost => rfl
  | join => exact ⟨hc, rfl, id⟩
  | close => exact ⟨rfl, rfl, id⟩
  | accept _ ho | start ho | standInLine _ ho | take _ _ _ _ _ ho | ask _ _ _ _ ho
  | serve _ _ _ _ _ ho => cases ho.symm.trans hc
  | appear hp | wake hp | findNothing hp | sleep hp | handBack _ hp =>
    exact winds_of_move hc rfl hp rfl
  | stop hp =>
    rcases hp with hp | hp
    · exact winds_of_move hc rfl hp rfl
    · exact winds_of_move hc rfl hp rfl
  | @depart q P _ i =>
    have hsame := worker_of_update_call P i .away
    exact ⟨hc, rfl, fun hgone => (congrArg Place.isGone hsame).trans hgone⟩

theorem Turns.winds (t : Turns asked takes a b) (hc : a.queue.closed = true) : Winds a b := by
  induction t with
  | refl => exact ⟨hc, rfl, id⟩
  | tail _ t ih =>
    have hlast := t.winds ih.closed
    exact ⟨hlast.closed, hlast.begun.trans ih.begun, fun hgone => hlast.gone (ih.gone hgone)⟩

end Scene

namespace ScriptedQueue

variable {w v : ScriptedQueue} {p : Party} {i : Nat}

/-! ### A closed queue -/

/-- The deliveries that have begun, the latest first. -/
def begun (w : ScriptedQueue) : List QueueEvent := w.history.filter QueueEvent.isHandling

/-- The worker was never started, or has come to its end. -/
def WorkerGone (w : ScriptedQueue) : Prop := w.worker = .absent ∨ w.worker.isOver = true

theorem workerGone_iff : w.WorkerGone ↔ (w.place .worker).isGone = true := by
  unfold WorkerGone place
  cases w.worker <;> simp [WorkerPoint.place, WorkerPoint.isOver, Place.isGone]

/-- A worker that is gone makes no delivery. -/
theorem WorkerGone.delivery_eq_none (h : w.WorkerGone) : w.delivery? .worker = none := by
  rcases h with h | h
  · simp [delivery?, h]
  · cases hw : w.worker <;> simp [delivery?, hw, WorkerPoint.isOver] at h ⊢

theorem winds_apply (hl : w.scene.Lawful) (hc : w.queue.closed = true) (a : QueueAction) :
    (w.apply a).scene.Lawful ∧ Scene.Winds w.scene (w.apply a).scene := by
  have hturns := turns_apply_any hl a
  exact ⟨hl.turns hturns, hturns.winds hc⟩

theorem winds_run (hl : w.scene.Lawful) (hc : w.queue.closed = true) (actions : List QueueAction) :
    (w.run actions).scene.Lawful ∧ Scene.Winds w.scene (w.run actions).scene := by
  induction actions generalizing w with
  | nil => exact ⟨hl, hc, rfl, id⟩
  | cons a rest ih =>
    obtain ⟨hl', hfirst⟩ := winds_apply hl hc a
    obtain ⟨hl'', hrest⟩ := ih hl' hfirst.closed
    exact ⟨hl'', hrest.closed, hrest.begun.trans hfirst.begun,
      fun hgone => hrest.gone (hfirst.gone hgone)⟩

/-! ### The calls -/

theorem calls_workerTurn (w : ScriptedQueue) : w.workerTurn.calls = w.calls := by
  unfold workerTurn
  split <;> rfl

theorem calls_handlerStep (w : ScriptedQueue) (p : Party) (run : HandlerRun) :
    (w.handlerStep p run).1.calls = w.calls :=
  have hhandles : Handles (fun _ _ => True) True w (w.handlerStep p run).1 :=
    handles_handlerStep w p run
  hhandles.calls

/-- The worker leaves the calls alone. -/
theorem calls_workerStep (w : ScriptedQueue) : w.workerStep.calls = w.calls := by
  unfold workerStep
  split
  · exact calls_workerTurn _
  · split <;> rfl
  · rename_i run _
    have hcalls := calls_handlerStep w .worker run
    rcases hs : w.handlerStep .worker run with ⟨u, progress⟩
    rw [hs] at hcalls
    cases progress with
    | running | crashed => exact hcalls
    | done => exact (calls_workerTurn _).trans hcalls
  · split
    · rfl
    · exact calls_workerTurn _
  · rfl
  · rfl
  · rfl

/-- A delivery that goes on is of the same kind. -/
theorem kind_of_running {u : ScriptedQueue} {run next : HandlerRun}
    (hs : w.handlerStep p run = (u, .running next)) : next.kind = run.kind := by
  obtain ⟨u', -, -, hstep⟩ := exists_handlerStep w p run
  rw [hs] at hstep
  cases hacts : run.acts with
  | nil => simp [hacts] at hstep
  | cons act rest =>
    simp only [hacts, handlerAct] at hstep
    cases act with
    | crash => simp at hstep
    | sleep | hold => simp_all
    | enqueue | start | close | shutdown | deliver => grind

/-- A call that goes on changes only itself; what it waits for or has under way is of the same
kind. -/
theorem exists_calls_callStep {c : QueueCall} (hc : w.calls[i]? = some c) :
    ∃ d, (w.callStep i).calls = w.calls.set i d ∧ ∀ kind ∈ d.kind?, kind ∈ c.kind? := by
  unfold callStep
  simp only [hc]
  cases c with
  | inLine b kind =>
    dsimp only
    split
    · exact ⟨.returned (some false), rfl, nofun⟩
    · exact ⟨.delivering (w.beginHandling (.call i) b kind).2, rfl, fun _ h => h⟩
  | delivering run =>
    have hcalls := calls_handlerStep w (.call i) run
    dsimp only
    rcases hs : w.handlerStep (.call i) run with ⟨u, progress⟩
    rw [hs] at hcalls
    cases progress with
    | running next =>
      refine ⟨.delivering next, congrArg (List.set · i _) hcalls, fun kind hkind => ?_⟩
      simpa only [QueueCall.kind?, kind_of_running hs] using hkind
    | done => exact ⟨.returned (some true), congrArg (List.set · i _) hcalls, nofun⟩
    | crashed => exact ⟨.crashed, congrArg (List.set · i _) hcalls, nofun⟩
  | joining =>
    refine ⟨.returned none, ?_, nofun⟩
    dsimp only [learnEnd]
    split <;> rfl
  | returned | crashed =>
    obtain ⟨hi, hget⟩ := List.getElem?_eq_some_iff.mp hc
    have hset : w.calls.set i w.calls[i] = w.calls := List.set_getElem_self hi
    rw [hget] at hset
    exact ⟨_, hset.symm, fun _ h => h⟩

theorem calls_enqueue (w : ScriptedQueue) (b : Batch Nat) : (w.enqueue b).1.calls = w.calls :=
  have hhandles : Handles (fun _ _ => True) True w (w.enqueue b).1 := handles_enqueue w b
  hhandles.calls

theorem calls_start (w : ScriptedQueue) : w.start.1.calls = w.calls :=
  have hhandles : Handles (fun _ _ => True) True w w.start.1 := handles_start w
  hhandles.calls

/-- The call that a direct delivery is: it stands in line if the queue is open. -/
theorem calls_deliverNow (w : ScriptedQueue) (b : Batch Nat) (kind : DeliveryKind) :
    (w.deliverNow b kind).calls =
      w.calls ++ [if w.queue.closed then .returned (some false) else .inLine b kind] := by
  cases hc : w.queue.closed <;> simp [deliverNow, Queue.ask, addCall, hc]

/-- The call that a shutdown is: it waits if it is told of a worker. -/
theorem calls_shutdown (w : ScriptedQueue) :
    w.shutdown.calls = w.calls ++ [if w.queue.unjoined then .joining else .returned none] := by
  cases hu : w.queue.unjoined <;>
    simp [shutdown, Queue.join, addCall, close, Queue.close, note, hu]

theorem released?_eq_some {run next : HandlerRun} {acts : List HandlerAct} :
    run.released? acts = some next ↔
      run.wait = .release ∧ next = { run with acts := acts, wait := .nothing } := by
  unfold HandlerRun.released?
  split
  · rename_i hwait
    simp [hwait, eq_comm]
  · rename_i hwait
    exact ⟨nofun, fun h => (hwait h.1).elim⟩

/-- A release changes a call only by letting its delivery go on with the given acts. -/
theorem getElem?_calls_release (acts : List HandlerAct) {c : QueueCall}
    (hc : w.calls[i]? = some c) :
    (w.release acts).1.calls[i]? = some c ∨ ∃ run next, c = .delivering run ∧
      run.released? acts = some next ∧ (w.release acts).1.calls[i]? = some (.delivering next) := by
  unfold release
  dsimp only
  split
  · exact .inl hc
  · split
    · rename_i hr
      obtain ⟨j, run, next, hrun, hnext, rfl⟩ := exists_of_releaseCalls hr
      by_cases hj : j = i
      · subst hj
        have hi : j < w.calls.length := (List.getElem?_eq_some_iff.mp hrun).1
        exact .inr ⟨run, next, Option.some.inj (hc.symm.trans hrun), hnext,
          List.getElem?_set_self hi⟩
      · exact .inl ((List.getElem?_set_ne hj).trans hc)
    · exact .inl hc

theorem length_calls_release (w : ScriptedQueue) (acts : List HandlerAct) :
    (w.release acts).1.calls.length = w.calls.length := by
  unfold release
  dsimp only
  split
  · rfl
  · split
    · rename_i hr
      simpa using congrArg List.length (map_place_releaseCalls hr)
    · rfl

/-- The direct deliveries that wait or are under way are of kinds that were asked for. -/
def KindsAsked (asked : DeliveryKind → Prop) (w : ScriptedQueue) : Prop :=
  ∀ (i : Nat) (c : QueueCall), w.calls[i]? = some c → ∀ kind ∈ c.kind?, asked kind

variable {asked : DeliveryKind → Prop}

theorem KindsAsked.of_calls (h : w.KindsAsked asked) (hc : v.calls = w.calls) :
    v.KindsAsked asked := by
  unfold KindsAsked
  rw [hc]
  exact h

theorem KindsAsked.of_append (h : w.KindsAsked asked) {d : QueueCall}
    (hc : v.calls = w.calls ++ [d]) (hd : ∀ kind ∈ d.kind?, asked kind) : v.KindsAsked asked := by
  intro i c hi
  rw [hc] at hi
  rcases List.mem_append.mp (List.mem_of_getElem? hi) with hmem | hmem
  · obtain ⟨j, hj⟩ := List.mem_iff_getElem?.mp hmem
    exact h j c hj
  · rw [List.mem_singleton.mp hmem]
    exact hd

theorem KindsAsked.of_set (h : w.KindsAsked asked) {c d : QueueCall} (hw : w.calls[i]? = some c)
    (hc : v.calls = w.calls.set i d) (hd : ∀ kind ∈ d.kind?, kind ∈ c.kind?) :
    v.KindsAsked asked := by
  intro j c' hj kind hkind
  rw [hc] at hj
  by_cases hij : i = j
  · subst hij
    have hi : i < w.calls.length := (List.getElem?_eq_some_iff.mp hw).1
    rw [List.getElem?_set_self hi] at hj
    obtain rfl := Option.some.inj hj
    exact h i c hw kind (hd kind hkind)
  · rw [List.getElem?_set_ne hij] at hj
    exact h j c' hj kind hkind

theorem KindsAsked.apply (h : w.KindsAsked asked) {a : QueueAction}
    (ha : ∀ b kind, a = .deliverNow b kind → asked kind) : (w.apply a).KindsAsked asked := by
  cases a with
  | run p =>
    simp only [ScriptedQueue.apply]
    split
    · rename_i hready
      cases p with
      | worker => exact h.of_calls (calls_workerStep w)
      | call i =>
        cases hcall : w.calls[i]? with
        | none => simp [ready, hcall] at hready
        | some c =>
          obtain ⟨d, hcalls, hd⟩ := exists_calls_callStep hcall
          exact h.of_set hcall hcalls hd
    · exact h
  | elapse | close => exact h
  | enqueue b => exact h.of_calls (calls_enqueue w b)
  | start => exact h.of_calls (calls_start w)
  | deliverNow b kind =>
    refine h.of_append (calls_deliverNow w b kind) fun k hk => ?_
    split at hk
    · cases hk
    · rw [← Option.some.inj hk]
      exact ha b kind rfl
  | shutdown =>
    refine h.of_append (calls_shutdown w) fun k hk => ?_
    split at hk <;> cases hk
  | release acts =>
    intro i d hd
    have hi : i < w.calls.length := by
      rw [← length_calls_release w acts]
      exact (List.getElem?_eq_some_iff.mp hd).1
    have hbefore := List.getElem?_eq_getElem hi
    rcases getElem?_calls_release acts hbefore with hsame | ⟨run, next, hrun, hnext, hgoes⟩
    · obtain rfl := Option.some.inj (hsame.symm.trans hd)
      exact h i _ hbefore
    · obtain rfl := Option.some.inj (hgoes.symm.trans hd)
      obtain ⟨-, rfl⟩ := released?_eq_some.mp hnext
      exact h i (.delivering run) (hbefore.trans (congrArg some hrun))

theorem kindsAsked_run (n : Nat) (script : List (List HandlerAct)) {actions : List QueueAction}
    (ha : ∀ b kind, .deliverNow b kind ∈ actions → asked kind) :
    ((new n script).run actions).KindsAsked asked := by
  refine run_induction (I := KindsAsked asked) ?_ nofun
  intro w a hmem h
  apply h.apply
  rintro b kind rfl
  exact ha b kind hmem

/-- What an action makes of the calls, unless it is a release: a call that goes on changes itself,
and a call that is made comes after the others, with no delivery under way yet. -/
theorem calls_apply (w : ScriptedQueue) {a : QueueAction} (hrel : ∀ acts, a ≠ .release acts) :
    (w.apply a).calls = w.calls ∨
      (∃ j d, a = .run (.call j) ∧ (w.apply a).calls = w.calls.set j d) ∨
      ∃ d, (w.apply a).calls = w.calls ++ [d] ∧ d.place ≠ .busy := by
  cases a with
  | run p =>
    simp only [apply]
    split
    · rename_i hready
      cases p with
      | worker => exact .inl (calls_workerStep w)
      | call j =>
        cases hcall : w.calls[j]? with
        | none => simp [ready, hcall] at hready
        | some c =>
          obtain ⟨d, hcalls, -⟩ := exists_calls_callStep hcall
          exact .inr (.inl ⟨j, d, rfl, hcalls⟩)
    · exact .inl rfl
  | elapse | close => exact .inl rfl
  | enqueue b => exact .inl (calls_enqueue w b)
  | start => exact .inl (calls_start w)
  | deliverNow b kind =>
    refine .inr (.inr ⟨_, calls_deliverNow w b kind, ?_⟩)
    split <;> exact Place.noConfusion
  | shutdown =>
    refine .inr (.inr ⟨_, calls_shutdown w, ?_⟩)
    split <;> exact Place.noConfusion
  | release acts => exact absurd rfl (hrel acts)

/-- A call changes only if it goes on itself or is released. -/
theorem getElem?_calls_of_other {c : QueueCall} (hc : w.calls[i]? = some c) {a : QueueAction}
    (hrun : a ≠ .run (.call i)) (hrel : ∀ acts, a ≠ .release acts) :
    (w.apply a).calls[i]? = some c := by
  have hi : i < w.calls.length := (List.getElem?_eq_some_iff.mp hc).1
  rcases calls_apply w hrel with hcalls | ⟨j, d, rfl, hcalls⟩ | ⟨d, hcalls, -⟩
  · rw [hcalls, hc]
  · have hne : j ≠ i := by
      rintro rfl
      exact hrun rfl
    rw [hcalls, List.getElem?_set_ne hne, hc]
  · rw [hcalls, List.getElem?_append_left hi, hc]

/-- A call that waits for the end of the worker goes on waiting as long as there is a worker. -/
theorem getElem?_calls_apply {c : QueueCall} (hc : w.calls[i]? = some c)
    (hwaits : c.awaitsEnd = true) (hover : w.worker.isOver = false) (a : QueueAction) :
    (w.apply a).calls[i]? = some c := by
  have hwaiting : w.ready (.call i) = false := by
    simp only [ready, hc]
    cases c with
    | joining => exact hover
    | delivering run =>
      have hwait : run.wait = .workerEnd := of_decide_eq_true hwaits
      simp [handlerReady, hwait, hover]
    | inLine | returned | crashed => cases hwaits
  by_cases hrun : a = .run (.call i)
  · have hsame : w.apply a = w := by simp [hrun, apply, hwaiting]
    rw [hsame, hc]
  cases a with
  | release acts =>
    rcases getElem?_calls_release acts hc with hsame | ⟨run, next, rfl, hnext, -⟩
    · exact hsame
    · obtain ⟨hheld, -⟩ := released?_eq_some.mp hnext
      cases (of_decide_eq_true hwaits).symm.trans hheld
  | run | elapse | enqueue | start | deliverNow | close | shutdown =>
    exact getElem?_calls_of_other hc hrun fun _ hrel => by cases hrel

/-- Whether the given call waits for the end of the worker. -/
def awaitsEnd (w : ScriptedQueue) (i : Nat) : Bool :=
  (w.calls[i]?.map QueueCall.awaitsEnd).getD false

theorem call_of_delivery {run : HandlerRun} (hd : w.delivery? (.call i) = some run) :
    w.calls[i]? = some (.delivering run) := by
  cases hc : w.calls[i]? with
  | none => simp [delivery?, hc] at hd
  | some c =>
    cases c with
    | delivering run' =>
      obtain rfl : run' = run := by simpa [delivery?, hc] using hd
      rfl
    | inLine | joining | returned | crashed => simp [delivery?, hc] at hd

theorem awaitsEnd_of_delivery {run : HandlerRun} (hd : w.delivery? (.call i) = some run)
    (hwait : run.wait = .workerEnd) : w.awaitsEnd i = true := by
  simp [awaitsEnd, call_of_delivery hd, QueueCall.awaitsEnd, hwait]

/-- Once a queue has closed, a call that waits for the end of the worker does so until the worker is
gone. -/
theorem awaits_or_gone_run (hl : w.scene.Lawful) (hc : w.queue.closed = true)
    (h : w.awaitsEnd i = true ∨ w.WorkerGone) (actions : List QueueAction) :
    (w.run actions).awaitsEnd i = true ∨ (w.run actions).WorkerGone := by
  -- the queue has to be closed: a worker that is not there could be started otherwise
  induction actions generalizing w with
  | nil => exact h
  | cons a rest ih =>
    obtain ⟨hl', hw⟩ := winds_apply hl hc a
    refine ih hl' hw.closed ?_
    have hgoes (hgone : w.WorkerGone) : (w.apply a).WorkerGone :=
      workerGone_iff.mpr (hw.gone (workerGone_iff.mp hgone))
    rcases h with hwaits | hgone
    · cases hover : w.worker.isOver with
      | true => exact .inr (hgoes (.inr hover))
      | false =>
        refine .inl ?_
        unfold awaitsEnd at hwaits
        cases hcall : w.calls[i]? with
        | none => simp [hcall] at hwaits
        | some c =>
          have hsame := getElem?_calls_apply hcall (by simpa [hcall] using hwaits) hover a
          simpa [awaitsEnd, hcall, hsame] using hwaits
    · exact .inr (hgoes hgone)

/-! ### The callers of a shutdown -/

/-- Who calls for a shutdown in an action: a new call, or the delivery of a party, in the handler.
-/
def shutdownCaller? (w : ScriptedQueue) : QueueAction → Option Party
  | .shutdown => some (.call w.calls.length)
  | .run p => if w.nextAct? p = some .shutdown ∧ w.outOfReach = false then some p else none
  | _ => none

/-- All those who call for a shutdown in a list of actions, in the order in which they do. -/
def shutdownCallers (w : ScriptedQueue) : List QueueAction → List Party
  | [] => []
  | a :: rest => (w.shutdownCaller? a).toList ++ (w.apply a).shutdownCallers rest

/-- Nobody has asked for the end of a worker that was started. -/
def Unasked (w : ScriptedQueue) : Prop := w.queue.unjoined = w.queue.started

theorem unasked_start (h : w.Unasked) : w.start.1.Unasked := by
  unfold Unasked at h ⊢
  cases hc : w.queue.closed <;> cases hs : w.queue.started <;>
    simp [start, Queue.start, hc, hs, h]

theorem unasked_enqueue (h : w.Unasked) (b : Batch Nat) : (w.enqueue b).1.Unasked := by
  unfold Unasked at h ⊢
  cases hc : w.queue.closed <;> simp [enqueue, Queue.enqueue, hc, note, h]

/-- Of what a handler does only a shutdown asks for the end of the worker. -/
theorem unasked_handlerAct (h : w.Unasked) (p : Party) (run : HandlerRun) {act : HandlerAct}
    (rest : List HandlerAct) (hne : act = .shutdown → w.outOfReach = true) :
    (w.handlerAct p run act rest).1.Unasked := by
  unfold handlerAct
  cases act with
  | sleep | hold | crash => exact h
  | enqueue b =>
    dsimp only
    split
    · exact h
    · exact unasked_enqueue h b
  | start =>
    dsimp only
    split
    · exact h
    · exact unasked_start h
  | close =>
    dsimp only
    split <;> exact h
  | shutdown =>
    simp only [hne rfl, if_true]
    exact h
  | deliver =>
    dsimp only
    split
    · exact h
    · split <;> exact h

theorem unasked_handlerStep (h : w.Unasked) (p : Party) {run : HandlerRun}
    (hne : run.acts.head? = some .shutdown → w.outOfReach = true) :
    (w.handlerStep p run).1.Unasked := by
  obtain ⟨u, hqueue, hreach, hstep⟩ := exists_handlerStep w p run
  have hu : u.Unasked := by
    unfold Unasked
    rw [hqueue]
    exact h
  rw [hstep]
  cases hacts : run.acts with
  | nil => exact hu
  | cons act rest =>
    apply unasked_handlerAct hu
    rintro rfl
    rw [hreach]
    exact hne (by rw [hacts]; rfl)

theorem unasked_workerTurn (h : w.Unasked) : w.workerTurn.Unasked := by
  unfold Unasked at h ⊢
  cases hc : w.queue.closed <;> simp [workerTurn, Queue.workerTurn, Queue.ask, hc, note, h]

theorem unasked_workerStep (h : w.Unasked) (hne : ∀ run, w.worker = .delivering run →
    run.acts.head? = some .shutdown → w.outOfReach = true) : w.workerStep.Unasked := by
  cases hw : w.worker with
  | fresh =>
    simp only [workerStep, hw]
    exact unasked_workerTurn (w := w.note .workerStarted) h
  | inLine =>
    simp only [workerStep, hw, Queue.takeNext]
    cases w.queue.heap.pop? with
    | none => exact h
    | some => cases w.queue.closed <;> exact h
  | delivering run =>
    have hstep := unasked_handlerStep h .worker (hne run hw)
    rcases hs : w.handlerStep .worker run with ⟨u, progress⟩
    rw [hs] at hstep
    simp only [workerStep, hw, hs]
    cases progress with
    | running | crashed => exact hstep
    | done => exact unasked_workerTurn hstep
  | asleep =>
    simp only [workerStep, hw]
    split
    · exact h
    · exact unasked_workerTurn h
  | absent | stopped | crashed =>
    simp only [workerStep, hw]
    exact h

theorem unasked_callStep (h : w.Unasked) (hne : ∀ run, w.calls[i]? = some (.delivering run) →
    run.acts.head? = some .shutdown → w.outOfReach = true) : (w.callStep i).Unasked := by
  unfold callStep
  dsimp only
  split
  · split <;> exact h
  · rename_i run hc
    have hstep := unasked_handlerStep h (.call i) (hne run hc)
    rcases hs : w.handlerStep (.call i) run with ⟨u, progress⟩
    rw [hs] at hstep
    cases progress <;> exact hstep
  · unfold learnEnd
    split <;> exact h
  · exact h

theorem unasked_apply (h : w.Unasked) {a : QueueAction} (ha : w.shutdownCaller? a = none) :
    (w.apply a).Unasked := by
  cases a with
  | run p =>
    simp only [apply]
    split
    · rename_i hready
      have hne (run : HandlerRun) (hd : w.delivery? p = some run)
          (hacts : run.acts.head? = some .shutdown) : w.outOfReach = true := by
        by_contra hreach
        simp [shutdownCaller?, nextAct?, hready, hd, hacts, hreach] at ha
      cases p with
      | worker => exact unasked_workerStep h fun run hw => hne run (by simp only [delivery?, hw])
      | call i => exact unasked_callStep h fun run hc => hne run (by simp only [delivery?, hc])
    · exact h
  | elapse | close => exact h
  | enqueue b => exact unasked_enqueue h b
  | start => exact unasked_start h
  | deliverNow b kind =>
    unfold Unasked at h ⊢
    cases hc : w.queue.closed <;> simp [apply, deliverNow, Queue.ask, hc, addCall, h]
  | shutdown => cases ha
  | release acts =>
    have hqueue : (w.release acts).1.queue = w.queue := congrArg Scene.queue (scene_release w acts)
    unfold Unasked
    rw [apply, hqueue]
    exact h

theorem unasked_run (h : w.Unasked) {actions : List QueueAction}
    (hnone : w.shutdownCallers actions = []) : (w.run actions).Unasked := by
  induction actions generalizing w with
  | nil => exact h
  | cons a rest ih =>
    obtain ⟨ha, hrest⟩ := List.append_eq_nil_iff.mp hnone
    exact ih (unasked_apply h (Option.toList_eq_nil_iff.mp ha)) hrest

/-- A handler that calls for a shutdown closes the queue; a direct delivery that is told of a worker
waits for its end. -/
theorem handlerStep_shutdown (p : Party) {run : HandlerRun}
    (hacts : run.acts.head? = some .shutdown) (hreach : w.outOfReach = false) :
    ∃ u next, w.handlerStep p run = (u, .running next) ∧ u.queue.closed = true ∧
      u.queue.unjoined = false ∧
      (p ≠ .worker → w.queue.unjoined = true → next.wait = .workerEnd) := by
  obtain ⟨rest, hacts⟩ := List.head?_eq_some_iff.mp hacts
  obtain ⟨u, hqueue, hreach', hstep⟩ := exists_handlerStep w p run
  simp only [hacts, handlerAct, hreach'.trans hreach, Bool.false_eq_true, if_false] at hstep
  rw [hstep]
  split
  · exact ⟨_, _, rfl, rfl, rfl, fun _ _ => rfl⟩
  · rename_i hwaits
    refine ⟨_, _, rfl, rfl, rfl, fun hp hu => absurd ?_ hwaits⟩
    simp [close, Queue.close, Queue.join, note, hqueue, hu, hp]

/-- A delivery that calls for a shutdown goes on. -/
theorem run_of_shutdownCaller {q : Party} (ha : w.shutdownCaller? (.run q) = some p) :
    q = p ∧ ∃ next, (w.apply (.run p)).delivery? p = some next ∧
      (w.apply (.run p)).queue.closed = true ∧ (w.apply (.run p)).queue.unjoined = false ∧
      (p ≠ .worker → w.queue.unjoined = true → next.wait = .workerEnd) := by
  simp only [shutdownCaller?] at ha
  split at ha
  · rename_i hnext
    obtain ⟨hnext, hreach⟩ := hnext
    obtain rfl : q = p := Option.some.inj ha
    unfold nextAct? at hnext
    split at hnext
    · rename_i hready
      obtain ⟨run, hd, hacts⟩ := Option.bind_eq_some_iff.mp hnext
      obtain ⟨u, next, hs, hclosed, hunjoined, hwait⟩ := handlerStep_shutdown q hacts hreach
      obtain ⟨hqueue, hgoes⟩ := step_of_running hd hs
      have happly : w.apply (.run q) = w.step q := if_pos hready
      rw [happly]
      exact ⟨rfl, next, hgoes, by rw [hqueue, hclosed], by rw [hqueue, hunjoined], hwait⟩
    · cases hnext
  · cases ha

/-- Whoever calls for a shutdown closes the queue, and waits if there is a worker that nobody has
asked to end; from then on somebody has. -/
theorem shutdown_apply {a : QueueAction} (ha : w.shutdownCaller? a = some p) :
    (w.apply a).queue.closed = true ∧ (w.apply a).queue.unjoined = false ∧
      ∀ i, p = .call i → w.queue.unjoined = true → (w.apply a).awaitsEnd i = true := by
  cases a with
  | shutdown =>
    have hqueue : w.shutdown.queue.closed = true ∧ w.shutdown.queue.unjoined = false := by
      cases hu : w.queue.unjoined <;> simp [shutdown, Queue.join, addCall, close, Queue.close,
        note, hu]
    refine ⟨hqueue.1, hqueue.2, ?_⟩
    rintro i rfl hu
    obtain rfl : w.calls.length = i := Party.call.inj (Option.some.inj ha)
    simp [apply, awaitsEnd, calls_shutdown, hu, QueueCall.awaitsEnd]
  | run q =>
    obtain ⟨rfl, next, hgoes, hclosed, hunjoined, hwait⟩ := run_of_shutdownCaller ha
    refine ⟨hclosed, hunjoined, ?_⟩
    rintro i rfl hu
    exact awaitsEnd_of_delivery hgoes (hwait Party.noConfusion hu)
  | elapse | enqueue | start | deliverNow | close | release => cases ha

/-- Who calls for a shutdown does not call for a start. -/
theorem startAnswer?_of_shutdown {a : QueueAction} (ha : w.shutdownCaller? a = some p) :
    w.startAnswer? a = none := by
  cases a with
  | shutdown => rfl
  | run q =>
    simp only [shutdownCaller?] at ha
    split at ha
    · rename_i hnext
      simp only [startAnswer?, hnext.1]
      rfl
    · cases ha
  | elapse | enqueue | start | deliverNow | close | release => cases ha

/-! ### Every run -/

theorem run_append (w : ScriptedQueue) (before after : List QueueAction) :
    w.run (before ++ after) = (w.run before).run after :=
  List.foldl_append

/-- A call for a shutdown that nobody has come before waits until the worker is gone. -/
theorem awaits_or_gone_of_first (n : Nat) (script : List (List HandlerAct))
    {before : List QueueAction} (hfirst : (new n script).shutdownCallers before = [])
    {a : QueueAction} (ha : ((new n script).run before).shutdownCaller? a = some (.call i))
    (after : List QueueAction) :
    ((((new n script).run before).apply a).run after).awaitsEnd i = true ∨
      ((((new n script).run before).apply a).run after).WorkerGone := by
  have hl' : (((new n script).run before).apply a).scene.Lawful := by
    rw [show ((new n script).run before).apply a = (new n script).run (before ++ [a]) from
      (run_append _ before [a]).symm]
    exact (orderly_run n script (before ++ [a])).1
  obtain ⟨hclosed, -, hwaits⟩ := shutdown_apply ha
  have hunasked : ((new n script).run before).Unasked :=
    unasked_run (w := new n script) rfl hfirst
  refine awaits_or_gone_run hl' hclosed ?_ after
  cases hu : ((new n script).run before).queue.unjoined with
  | true => exact .inl (hwaits i rfl hu)
  | false =>
    -- no worker was started, and the shutdown starts none
    have hstarted : ((new n script).run before).queue.started = false := hunasked.symm.trans hu
    have hcount := started_apply ((new n script).run before) a
    rw [startAnswer?_of_shutdown ha, hstarted] at hcount
    have haway : (((new n script).run before).apply a).place .worker = .away :=
      hl'.started.mp (Bool.toNat_eq_zero.mp hcount)
    exact .inr (workerGone_iff.mpr (by rw [haway]; rfl))

/-- A shutdown is the end of the worker for the first who calls for it. In every run, whoever calls
for one, anew or in a handler: from then on the queue is closed and no delivery begins. If nobody
has called for one before, and it is not the worker itself that does, then once the call waits no
longer for the worker, the worker is gone for good: it was never started or has come to its end,
none of its deliveries is under way, and a live one only if it was asked for directly as a live one.
-/
theorem worker_gone_after_first_shutdown (n : Nat) (script : List (List HandlerAct))
    (before : List QueueAction) (a : QueueAction) (p : Party)
    (hcall : ((new n script).run before).shutdownCaller? a = some p) (after : List QueueAction) :
    let w := ((new n script).run before).apply a
    let v := w.run after
    v.queue.closed = true ∧ v.begun = w.begun ∧
      ∀ i, p = .call i → (new n script).shutdownCallers before = [] → v.awaitsEnd i = false →
        ∀ more, (v.run more).WorkerGone ∧
          ∀ q run, (v.run more).delivery? q = some run →
            q ≠ .worker ∧ (run.kind = .live →
              ∃ b, .deliverNow b .live ∈ before ++ a :: (after ++ more)) := by
  intro w v
  have hw : w = (new n script).run (before ++ [a]) := (run_append _ before [a]).symm
  have hl : w.scene.Lawful := hw ▸ (orderly_run n script (before ++ [a])).1
  have hclosed : w.queue.closed = true := (shutdown_apply hcall).1
  obtain ⟨hlv, hwinds⟩ : v.scene.Lawful ∧ Scene.Winds w.scene v.scene := winds_run hl hclosed after
  refine ⟨hwinds.closed, hwinds.begun, ?_⟩
  rintro i rfl hfirst hwaits more
  have hgone : v.WorkerGone := by
    rcases awaits_or_gone_of_first n script hfirst hcall after with h | h
    · exact absurd h (by rw [hwaits]; decide)
    · exact h
  have hgone' : (v.run more).WorkerGone :=
    workerGone_iff.mpr ((winds_run hlv hwinds.closed more).2.gone (workerGone_iff.mp hgone))
  have hrun : v.run more = (new n script).run (before ++ a :: (after ++ more)) :=
    calc v.run more = w.run (after ++ more) := (run_append w after more).symm
      _ = (new n script).run (before ++ a :: (after ++ more)) := by
          rw [run_append _ before]
          rfl
  -- no worker delivers any more, so that a live delivery is one that was asked for
  have hkinds : (v.run more).KindsAsked
      fun kind => ∃ b, .deliverNow b kind ∈ before ++ a :: (after ++ more) := by
    rw [hrun]
    exact kindsAsked_run n script fun b kind hmem => ⟨b, hmem⟩
  refine ⟨hgone', ?_⟩
  intro q run hd
  cases q with
  | worker => cases hgone'.delivery_eq_none.symm.trans hd
  | call j =>
    refine ⟨by simp, fun hlive => ?_⟩
    rw [← hlive]
    exact hkinds j _ (call_of_delivery hd) run.kind rfl

/-- The worker is at work on a batch when somebody calls for a shutdown; the call returns when the
worker has handed the batch over and stopped. -/
theorem worker_gone_after_first_shutdown_of_held :
    let before := [.start, .enqueue ⟨[⟨1, ""⟩]⟩, .run .worker, .run .worker, .run .worker]
    let after := [.release [], .run .worker, .run (.call 0)]
    let v := (((new 8 [[.hold]]).run before).apply .shutdown).run after
    v.calls[0]? = some (.returned none) ∧
      .handled .worker ⟨[⟨1, ""⟩]⟩ none ∈ v.history ∧ v.WorkerGone := by
  intro before after v
  have hcall : ((new 8 [[.hold]]).run before).shutdownCaller? .shutdown = some (.call 0) := by
    decide +kernel
  have hgone := (worker_gone_after_first_shutdown 8 [[.hold]] before .shutdown (.call 0) hcall
    after).2.2 0 rfl (by decide +kernel) (by decide +kernel) []
  exact ⟨by decide +kernel, by decide +kernel, hgone.1⟩

/-- Whoever comes second does not wait. The first call waits for the worker, which is at work on a
batch; the second one returns at once, while the delivery of the live batch is under way. -/
theorem second_shutdown_returns_at_once :
    let v := (new 8 [[.hold]]).run [.start, .enqueue ⟨[⟨1, ""⟩]⟩, .run .worker, .run .worker,
      .run .worker, .shutdown, .shutdown]
    v.calls[1]? = some (.returned none) ∧ ¬ v.WorkerGone ∧
      v.delivery? .worker = some ⟨⟨[⟨1, ""⟩]⟩, .live, [], .release, none⟩ := by
  intro v
  refine ⟨by decide +kernel, ?_, by decide +kernel⟩
  rw [workerGone_iff]
  decide +kernel

/-- So does whoever comes after the worker, which calls for a shutdown in its handler and does not
wait for itself. -/
example :
    let v := (new 8 [[.shutdown, .hold]]).run [.start, .enqueue ⟨[⟨1, ""⟩]⟩, .run .worker,
      .run .worker, .run .worker, .run .worker, .shutdown]
    v.calls[0]? = some (.returned none) ∧
      v.delivery? .worker = some ⟨⟨[⟨1, ""⟩]⟩, .live, [], .release, none⟩ := by
  decide +kernel

end ScriptedQueue

end Multicast
