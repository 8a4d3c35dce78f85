/-!
Running a system of tasks on one virtual clock. A task is either ready, or waits for another task,
or sleeps until a moment on the clock. `Schedule.settle` lets the ready tasks run, first come first
served, until none is ready; `Schedule.advance` lets time pass and wakes the sleepers in the order
of their moments, those of one moment in the order in which they went to sleep.
-/

namespace Multicast

/-- A system of tasks `τ` over states `σ`. -/
structure TaskSystem (σ τ : Type) where
  tasks : σ → List τ
  ready : σ → τ → Bool
  sleepsUntil : σ → τ → Option Nat
  /-- Lets a task run until it next waits for anything. -/
  step : σ → τ → σ
  now : σ → Nat
  atTime : σ → Nat → σ
  /-- A bound on the number of steps that can follow each other without a wait. -/
  effort : σ → Nat

/-- A state together with the sleepers, in the order in which they went to sleep. -/
structure Schedule (σ τ : Type) where
  state : σ
  sleepers : List (τ × Nat) := []

namespace Schedule

variable {σ τ : Type} [BEq τ] (m : TaskSystem σ τ)

/-- The ready tasks, in the order of the system. -/
def readyTasks (s : σ) : List τ := (m.tasks s).filter (m.ready s)

/-- Lets one task run for as long as it is ready. -/
def runTask (t : τ) : Nat → σ → σ
  | 0, s => s
  | fuel + 1, s => if m.ready s t then runTask t fuel (m.step s t) else s

/-- Notes that the task has gone to sleep, or is no longer asleep. -/
def noteSleep (s : Schedule σ τ) (t : τ) : Schedule σ τ :=
  match m.sleepsUntil s.state t with
  | some moment =>
    if s.sleepers.any fun e => e.1 == t && e.2 == moment then s
    else { s with sleepers := (s.sleepers.filter fun e => !(e.1 == t)) ++ [(t, moment)] }
  | none => { s with sleepers := s.sleepers.filter fun e => !(e.1 == t) }

/-- Lets the tasks of the waiting list run in turn; a task that becomes ready joins the list. -/
def drain : Nat → List τ → Schedule σ τ → Schedule σ τ
  | 0, _, s => s
  | _ + 1, [], s => s
  | fuel + 1, t :: rest, s =>
    let next := noteSleep m { s with state := runTask m t (m.effort s.state) s.state } t
    let fresh := (readyTasks m next.state).filter fun u => !(u == t) && !rest.contains u
    drain fuel (rest ++ fresh) next

/-- Lets the ready tasks run until none is ready, those of the given list first. -/
def settleFrom (first : List τ) (s : Schedule σ τ) : Schedule σ τ :=
  let noted := (m.tasks s.state).foldl (noteSleep m) s
  let others := (readyTasks m s.state).filter fun t => !first.contains t
  drain m (m.effort s.state) (first ++ others) noted

/-- Lets the ready tasks run until none is ready. -/
def settle (s : Schedule σ τ) : Schedule σ τ := settleFrom m [] s

/-- The next moment at which a sleeper is due, if it is not after `limit`. -/
def nextMoment (s : Schedule σ τ) (limit : Nat) : Option Nat :=
  ((s.sleepers.map Prod.snd).filter (· ≤ limit)).min?

/-- Wakes the sleepers whose moments come up to `limit`, one moment after the other. -/
def advanceTo (limit : Nat) : Nat → Schedule σ τ → Schedule σ τ
  | 0, s => s
  | fuel + 1, s =>
    match nextMoment s limit with
    | none => s
    | some moment =>
      let due := (s.sleepers.filter (·.2 == moment)).map Prod.fst
      let woken : Schedule σ τ :=
        { state := m.atTime s.state (max moment (m.now s.state))
          sleepers := s.sleepers.filter fun e => !(e.2 == moment) }
      advanceTo limit fuel (settleFrom m (due.filter (m.ready woken.state)) woken)

def advance (ms : Nat) (s : Schedule σ τ) : Schedule σ τ :=
  let limit := m.now s.state + ms
  let last := advanceTo m limit (ms + 1) s
  { last with state := m.atTime last.state limit }

end Schedule

end Multicast
