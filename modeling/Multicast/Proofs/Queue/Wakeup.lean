import Multicast.Proofs.Queue.GateLine

/-! No wake-up is lost. A worker that has found nothing goes to sleep with the wake-ups that came in
between, so that whatever is pending while it sleeps has woken it; and a queue in which nobody can
go on has nothing left to do. -/

namespace Multicast

open Function (update)

namespace Signal

/-- A wake-up ends a sleep that begins after it. -/
theorem isGiven_await_notify (s : Signal) : s.notify.await.isGiven = true := by
  cases s <;> rfl

@[simp] theorem await_await (s : Signal) : s.await.await = s.await := by
  cases s <;> rfl

/-- A wake-up does not end the sleep in any other way than by being given. -/
theorem await_notify {s : Signal} (h : s.await = s) : s.notify.await = s.notify := by
  cases s <;> first | rfl | cases h

end Signal

namespace Scene

variable {a b : Scene} {asked : Batch Nat → DeliveryKind → Prop} {takes : Prop}

/-- The worker rests while nothing is pending that it has not been told of, and stops only when the
queue has closed. -/
structure Attentive (a : Scene) : Prop where
  told : a.places .worker = .idle ∨ a.places .worker = .asleep → a.queue.closed = false →
    a.queue.heap.contents ≠ 0 → a.queue.signal.await.isGiven = true
  sleeps : a.places .worker = .asleep → a.queue.signal.await = a.queue.signal
  stops : a.places .worker = .stopped → a.queue.closed = true

/-- Only what the worker sees when it rests, and its place, matter. -/
theorem Attentive.of_same (h : a.Attentive) (hheap : b.queue.heap = a.queue.heap)
    (hsignal : b.queue.signal = a.queue.signal) (hclosed : b.queue.closed = a.queue.closed)
    (hp : b.places .worker = a.places .worker) : b.Attentive := by
  refine ⟨?_, ?_, ?_⟩
  · rw [hheap, hsignal, hclosed, hp]
    exact h.told
  · rw [hsignal, hp]
    exact h.sleeps
  · rw [hclosed, hp]
    exact h.stops

/-- A worker that is up again has nothing to be told of. -/
theorem attentive_of_up (hidle : b.places .worker ≠ .idle) (hasleep : b.places .worker ≠ .asleep)
    (hstopped : b.places .worker ≠ .stopped) : b.Attentive :=
  ⟨fun hp => (hp.elim hidle hasleep).elim, fun hp => (hasleep hp).elim,
    fun hp => (hstopped hp).elim⟩

theorem Attentive.turn (h : a.Attentive) (t : Turn asked takes a b) : b.Attentive := by
  cases t with
  | tell | join => exact h.of_same rfl rfl rfl rfl
  | @accept q _ _ batch hc =>
    have hq : (q.enqueue batch).1 =
        { q with heap := q.heap.push batch, signal := q.signal.notify } := by
      simp only [Queue.enqueue, hc, Bool.false_eq_true, if_false]
    rw [hq]
    exact ⟨fun _ _ _ => q.signal.isGiven_await_notify, fun hp => Signal.await_notify (h.sleeps hp),
      h.stops⟩
  | close =>
    refine ⟨?_, h.sleeps, fun _ => rfl⟩
    intro _ ho
    cases ho
  | start | appear | wake | standInLine | take => apply attentive_of_up <;> simp
  | stop hp hc => exact ⟨by simp, by simp, fun _ => hc⟩
  | findNothing hp hg hb =>
    have hnone := (Heap.pop?_eq_none_iff _).mp hb
    exact ⟨fun _ _ hne => absurd hnone hne, by simp, by simp⟩
  | @sleep q _ _ hp =>
    refine ⟨?_, fun _ => q.signal.await_await, by simp⟩
    intro _ ho hne
    rw [Signal.await_await]
    exact h.told (.inl hp) ho hne
  | handBack place hp hplace => apply attentive_of_up <;> rcases hplace with rfl | rfl <;> simp
  | @ask q P _ i b k => exact h.of_same rfl rfl rfl (worker_of_update_call P i (.asking b k))
  | @serve q P _ i => exact h.of_same rfl rfl rfl (worker_of_update_call P i .busy)
  | @depart q P _ i => exact h.of_same rfl rfl rfl (worker_of_update_call P i .away)

theorem Attentive.turns (h : a.Attentive) (t : Turns asked takes a b) : b.Attentive := by
  induction t with
  | refl => exact h
  | tail _ t ih => exact ih.turn t

/-- A worker that sleeps and has not been woken has nothing to do. -/
theorem Attentive.isEmpty (h : a.Attentive) (ho : a.queue.closed = false)
    (hp : a.places .worker = .asleep) (hs : a.queue.signal.isGiven = false) :
    a.queue.heap.isEmpty = true := by
  rw [← Heap.contents_eq_zero_iff]
  by_contra hne
  have htold := h.told (.inr hp) ho hne
  rw [h.sleeps hp, hs] at htold
  cases htold

end Scene

namespace ScriptedQueue

variable {w : ScriptedQueue}

theorem attentive_run (n : Nat) (script : List (List HandlerAct)) (actions : List QueueAction) :
    ((new n script).run actions).scene.Attentive := by
  refine (run_scene_induction n script actions ?_ fun a b _ h t => h.turn t).2
  exact ⟨nofun, nofun, nofun⟩

/-- Whoever has the gate and is not ready has a delivery under way. -/
theorem ready_of_holds {p : Party} (hg : w.queue.gate.holds p = true)
    (hat : (w.place p).atGate = true) (hidle : w.delivery? p = none) : w.ready p = true := by
  cases p with
  | worker =>
    cases hw : w.worker with
    | inLine => simp only [ready, hw, Queue.workerReady, hg]
    | delivering run => simp [delivery?, hw] at hidle
    | absent | fresh | asleep | stopped | crashed => simp [place, hw, WorkerPoint.place,
        Place.atGate] at hat
  | call i =>
    cases hc : w.calls[i]? with
    | none => simp [place, hc, Place.atGate] at hat
    | some c =>
      cases c with
      | inLine b k => simp only [ready, hc, hg]
      | delivering run => simp [delivery?, hc] at hidle
      | joining | returned | crashed => simp [place, hc, QueueCall.place, Place.atGate] at hat

/-- Where nobody can go on and no delivery is under way, nobody is at the gate. -/
theorem not_atGate_of_stuck (h : w.scene.Orderly) (hstuck : ∀ p, w.ready p = false)
    (hidle : ∀ p, w.delivery? p = none) (p : Party) : (w.place p).atGate = false := by
  by_contra hat
  obtain ⟨q, hg, hat'⟩ := h.exists_holds (p := p) (eq_true_of_ne_false hat)
  have hready := ready_of_holds hg hat' (hidle q)
  rw [hstuck q] at hready
  cases hready

/-- Where nobody can go on, a worker that was started and has not crashed is asleep, unless a
delivery is under way or the queue has closed. -/
theorem asleep_of_stuck (hl : w.scene.Lawful) (ho : w.scene.Orderly) (ha : w.scene.Attentive)
    (hopen : w.queue.closed = false) (hstuck : ∀ p, w.ready p = false)
    (hstarted : w.queue.started = true) (hsound : w.worker ≠ .crashed)
    (hidle : ∀ p, w.delivery? p = none) : w.worker = .asleep := by
  have hready := hstuck .worker
  have hgate := not_atGate_of_stuck ho hstuck hidle .worker
  cases hw : w.worker with
  | asleep => rfl
  | absent =>
    have hnever : w.queue.started = false := hl.started.mpr (by simp [scene, place, hw,
      WorkerPoint.place])
    rw [hstarted] at hnever
    cases hnever
  | fresh => simp [ready, hw, Queue.workerReady] at hready
  | inLine | delivering => simp [place, hw, WorkerPoint.place, Place.atGate] at hgate
  | stopped =>
    have hclosed : w.queue.closed = true := ha.stops (by simp [scene, place, hw,
      WorkerPoint.place])
    rw [hopen] at hclosed
    cases hclosed
  | crashed => exact absurd hw hsound

/-- No wake-up is lost. In every run of a queue that is open: where nobody can go on, the worker was
started and has not crashed, and no delivery is under way, nothing is pending; and nothing is
pending while the worker sleeps and has not been woken. This last holds at the moments within an
action too, so that batches that come between the look at an empty heap and the sleep are not
forgotten. -/
theorem no_lost_wakeup (n : Nat) (script : List (List HandlerAct)) (actions : List QueueAction) :
    let w := (new n script).run actions
    w.queue.closed = false →
      ((∀ p, w.ready p = false) → w.queue.started = true → w.worker ≠ .crashed →
        (∀ p, w.delivery? p = none) → w.queue.heap.isEmpty = true) ∧
      (w.worker = .asleep → w.queue.signal.isGiven = false → w.queue.heap.isEmpty = true) ∧
      ∀ a, Scene.Turns (fun _ _ => True) True w.scene a → a.queue.closed = false →
        a.places .worker = .asleep → a.queue.signal.isGiven = false →
        a.queue.heap.isEmpty = true := by
  intro w hopen
  obtain ⟨hl, ho⟩ : w.scene.Lawful ∧ w.scene.Orderly := orderly_run n script actions
  have ha : w.scene.Attentive := attentive_run n script actions
  have hempty (hw : w.worker = .asleep) (hs : w.queue.signal.isGiven = false) :
      w.queue.heap.isEmpty = true :=
    ha.isEmpty hopen (by simp [scene, place, hw, WorkerPoint.place]) hs
  refine ⟨?_, hempty, fun a ht => (ha.turns ht).isEmpty⟩
  intro hstuck hstarted hsound hidle
  have hw := asleep_of_stuck hl ho ha hopen hstuck hstarted hsound hidle
  have hready := hstuck .worker
  simp only [ready, hw, Queue.workerReady, hopen, Bool.false_or] at hready
  exact hempty hw hready

/-- A batch comes while the worker sleeps, and the handler adds another one; in the end the worker
sleeps again, and nothing is pending. -/
theorem no_lost_wakeup_of_reentry :
    let w := (new 1 [[.enqueue ⟨[⟨2, ""⟩]⟩]]).run
      ([.start, .run .worker, .run .worker, .enqueue ⟨[⟨1, ""⟩]⟩] ++
        List.replicate 9 (.run .worker))
    .handling .worker ⟨[⟨2, ""⟩]⟩ .live ∈ w.history ∧ w.queue.heap.isEmpty = true := by
  intro w
  have hopen : w.queue.closed = false := by decide +kernel
  have hplace : w.place .worker = .asleep := by decide +kernel
  have hready : w.ready .worker = false := by decide +kernel
  have hcalls : w.calls = [] := by decide +kernel
  have hstuck (p : Party) : w.ready p = false := by
    cases p with
    | worker => exact hready
    | call i => simp [ready, hcalls]
  have hidle (p : Party) : w.delivery? p = none := by
    cases p with
    | worker => decide +kernel
    | call i => simp [delivery?, hcalls]
  have hsound : w.worker ≠ .crashed := by
    intro hcrashed
    simp [place, hcrashed, WorkerPoint.place] at hplace
  exact ⟨by decide +kernel, (no_lost_wakeup _ _ _ hopen).1 hstuck (by decide +kernel) hsound hidle⟩

end ScriptedQueue

end Multicast
