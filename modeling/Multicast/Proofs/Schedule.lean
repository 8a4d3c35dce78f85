import Multicast.Schedule

/-! What a schedule makes of a system of tasks. However it chooses among the tasks, all that happens
is that tasks go on which are ready, and that the clock goes forward; so a schedule only comes to
states to which runs come, if these two are among the actions of a run. -/

namespace Multicast

section Runs

variable {σ α : Type} {apply : σ → α → σ} {s u v : σ}

/-- Some actions lead from one state to another, `apply` being what an action does. -/
def RunsTo (apply : σ → α → σ) (s u : σ) : Prop :=
  ∃ actions : List α, u = actions.foldl apply s

theorem RunsTo.refl (apply : σ → α → σ) (s : σ) : RunsTo apply s s := ⟨[], rfl⟩

theorem RunsTo.single (apply : σ → α → σ) (s : σ) (a : α) : RunsTo apply s (apply s a) := ⟨[a], rfl⟩

theorem RunsTo.trans (h : RunsTo apply s u) (h' : RunsTo apply u v) : RunsTo apply s v := by
  obtain ⟨first, rfl⟩ := h
  obtain ⟨rest, rfl⟩ := h'
  exact ⟨first ++ rest, List.foldl_append.symm⟩

end Runs

namespace TaskSystem

variable {σ τ : Type} {m : TaskSystem σ τ} {limit : Nat} {s u v : σ}

/-- What a system of tasks can come to from a state, before its clock goes beyond a limit. -/
inductive ComesTo (m : TaskSystem σ τ) (limit : Nat) (s : σ) : σ → Prop
  | refl : ComesTo m limit s s
  | step {u : σ} (h : ComesTo m limit s u) (t : τ) (ready : m.ready u t = true) :
      ComesTo m limit s (m.step u t)
  | wait {u : σ} (h : ComesTo m limit s u) (moment : Nat) (later : m.now u ≤ moment)
      (bound : moment ≤ limit) : ComesTo m limit s (m.atTime u moment)

/-- The clock goes as it is told to, and no task touches it. -/
structure Timed (m : TaskSystem σ τ) : Prop where
  now_step : ∀ s t, m.now (m.step s t) = m.now s
  now_atTime : ∀ s moment, m.now (m.atTime s moment) = moment

theorem ComesTo.trans (h : m.ComesTo limit s u) (h' : m.ComesTo limit u v) :
    m.ComesTo limit s v := by
  induction h' with
  | refl => exact h
  | step _ t ready ih => exact ih.step t ready
  | wait _ moment later bound ih => exact ih.wait moment later bound

/-- What a system comes to is what some actions lead to, if they do all that it can do. -/
theorem ComesTo.runsTo {α : Type} {apply : σ → α → σ} (h : m.ComesTo limit s u)
    (hstep : ∀ s t, m.ready s t = true → RunsTo apply s (m.step s t))
    (hwait : ∀ s moment, m.now s ≤ moment → RunsTo apply s (m.atTime s moment)) :
    RunsTo apply s u := by
  induction h with
  | refl => exact .refl apply s
  | step _ t ready ih => exact ih.trans (hstep _ t ready)
  | wait _ moment later _ ih => exact ih.trans (hwait _ moment later)

theorem ComesTo.now_le (h : m.ComesTo limit s u) (hm : m.Timed) (hs : m.now s ≤ limit) :
    m.now u ≤ limit := by
  induction h with
  | refl => exact hs
  | step _ t _ ih =>
    rw [hm.now_step]
    exact ih
  | wait _ moment _ bound _ =>
    rw [hm.now_atTime]
    exact bound

end TaskSystem

namespace Schedule

section Parts

variable {σ τ : Type} {m : TaskSystem σ τ}

theorem comesTo_runTask (limit fuel : Nat) (t : τ) (s : σ) :
    m.ComesTo limit s (runTask m t fuel s) := by
  induction fuel generalizing s with
  | zero => exact .refl
  | succ fuel ih =>
    unfold runTask
    split
    · next ready => exact (TaskSystem.ComesTo.refl.step t ready).trans (ih (m.step s t))
    · exact .refl

/-- No moment comes up that is after the limit. -/
theorem le_of_nextMoment {s : Schedule σ τ} {limit moment : Nat}
    (h : nextMoment s limit = some moment) : moment ≤ limit := by
  have hmem := List.min?_mem h
  exact of_decide_eq_true (List.mem_filter.mp hmem).2

end Parts

variable {σ τ : Type} [BEq τ] {m : TaskSystem σ τ}

/-! ### Until all tasks wait -/

theorem state_noteSleep (s : Schedule σ τ) (t : τ) : (noteSleep m s t).state = s.state := by
  unfold noteSleep
  split
  · split <;> rfl
  · rfl

theorem state_foldl_noteSleep (ts : List τ) (s : Schedule σ τ) :
    (ts.foldl (noteSleep m) s).state = s.state := by
  induction ts generalizing s with
  | nil => rfl
  | cons t rest ih => rw [List.foldl_cons, ih, state_noteSleep]

theorem comesTo_drain (limit fuel : Nat) (waiting : List τ) (s : Schedule σ τ) :
    m.ComesTo limit s.state (drain m fuel waiting s).state := by
  induction fuel generalizing waiting s with
  | zero => exact .refl
  | succ fuel ih =>
    cases waiting with
    | nil => exact .refl
    | cons t rest =>
      -- the first in line goes on until it waits, and then the others do
      have hrun := comesTo_runTask (m := m) limit (m.effort s.state) t s.state
      refine TaskSystem.ComesTo.trans ?_ (ih _ _)
      rw [state_noteSleep]
      exact hrun

theorem comesTo_settleFrom (limit : Nat) (first : List τ) (s : Schedule σ τ) :
    m.ComesTo limit s.state (settleFrom m first s).state := by
  have hdrain := comesTo_drain (m := m) limit (m.effort s.state)
    (first ++ (readyTasks m s.state).filter fun t => !first.contains t)
    ((m.tasks s.state).foldl (noteSleep m) s)
  rwa [state_foldl_noteSleep] at hdrain

theorem comesTo_settle (limit : Nat) (s : Schedule σ τ) :
    m.ComesTo limit s.state (s.settle m).state :=
  comesTo_settleFrom limit [] s

/-! ### As time passes -/

theorem comesTo_advanceTo (hm : m.Timed) {limit : Nat} (fuel : Nat) {s : Schedule σ τ}
    (hs : m.now s.state ≤ limit) : m.ComesTo limit s.state (advanceTo m limit fuel s).state := by
  induction fuel generalizing s with
  | zero => exact .refl
  | succ fuel ih =>
    unfold advanceTo
    split
    · exact .refl
    · next moment hnext =>
      have hbound : max moment (m.now s.state) ≤ limit :=
        Nat.max_le.mpr ⟨le_of_nextMoment hnext, hs⟩
      have hwoken : m.ComesTo limit s.state (m.atTime s.state (max moment (m.now s.state))) :=
        TaskSystem.ComesTo.refl.wait _ (Nat.le_max_right moment _) hbound
      -- the tasks that are woken go on, and all others that are ready then
      have hsettled (due : List τ) (sleepers : List (τ × Nat)) : m.ComesTo limit s.state
          (settleFrom m due ⟨m.atTime s.state (max moment (m.now s.state)), sleepers⟩).state :=
        hwoken.trans (comesTo_settleFrom limit due ⟨_, sleepers⟩)
      exact (hsettled _ _).trans (ih ((hsettled _ _).now_le hm hs))

theorem comesTo_advance (hm : m.Timed) (ms : Nat) (s : Schedule σ τ) :
    m.ComesTo (m.now s.state + ms) s.state (s.advance m ms).state := by
  have hs : m.now s.state ≤ m.now s.state + ms := Nat.le_add_right _ ms
  have hlast := comesTo_advanceTo hm (ms + 1) hs
  exact hlast.wait _ (hlast.now_le hm hs) (Nat.le_refl _)

end Schedule

end Multicast
