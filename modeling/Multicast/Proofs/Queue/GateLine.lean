import Multicast.Proofs.Gate
import Multicast.Proofs.Queue.Scene

/-! Who stands in the line for the gate. In every scene of a queue the line names those once who are
at the gate, and only them; whoever has a delivery under way is its head. -/

namespace Multicast

open Function (update)

namespace Queue

variable {ι : Type}

@[simp] theorem gate_enqueue [LT ι] [DecidableLT ι] (q : Queue ι) (b : Batch ι) :
    (q.enqueue b).1.gate = q.gate := by
  unfold enqueue
  split <;> rfl

@[simp] theorem gate_start (q : Queue ι) : q.start.1.gate = q.gate := by
  unfold start
  split <;> rfl

end Queue

namespace Scene

variable {a b : Scene} {p : Party} {place : Place} {asked : Batch Nat → DeliveryKind → Prop}
  {takes : Prop}

/-- The line for the gate and the places of the parties tell the same. -/
structure Orderly (a : Scene) : Prop where
  nodup : a.queue.gate.line.Nodup
  mem : ∀ p, p ∈ a.queue.gate.line ↔ (a.places p).atGate = true
  holds : ∀ p, a.places p = .busy → a.queue.gate.holds p = true

theorem orderly_iff : a.Orderly ↔
    a.queue.gate.Names (fun p => (a.places p).atGate = true) (a.places · = .busy) :=
  ⟨fun h => ⟨h.nodup, h.mem, h.holds⟩, fun h => ⟨h.nodup, h.mem, h.holds⟩⟩

theorem Orderly.of_same (h : a.Orderly) (hg : b.queue.gate = a.queue.gate)
    (hp : b.places = a.places) : b.Orderly := by
  rw [orderly_iff, hg, hp]
  exact orderly_iff.mp h

/-- Where one party changes its place the others stay at theirs. -/
theorem places_of_others (hp : b.places = update a.places p place) (q : Party) (hq : q ≠ p) :
    ((b.places q).atGate = true ↔ (a.places q).atGate = true) ∧
      (b.places q = .busy → a.places q = .busy) := by
  rw [hp, Function.update_of_ne hq]
  exact ⟨Iff.rfl, id⟩

/-- A party that stays away from the gate, or stays at it, changes its place. -/
theorem Orderly.move (h : a.Orderly) (hg : b.queue.gate = a.queue.gate)
    (hp : b.places = update a.places p place) (hat : place.atGate = (a.places p).atGate)
    (hbusy : place = .busy → a.queue.gate.holds p = true) : b.Orderly := by
  rw [orderly_iff, hg]
  refine (orderly_iff.mp h).stay (places_of_others hp) ?_ ?_
  · rw [hp, Function.update_self, hat]
  · rw [hp, Function.update_self]
    exact hbusy

theorem Orderly.join (h : a.Orderly) (hg : b.queue.gate = a.queue.gate.join p)
    (hp : b.places = update a.places p place) (hout : (a.places p).atGate = false)
    (hat : place.atGate = true) (hwait : place ≠ .busy) : b.Orderly := by
  rw [orderly_iff, hg]
  refine (orderly_iff.mp h).join (places_of_others hp) ?_ ?_ ?_
  · rw [hout]
    exact Bool.false_ne_true
  · rw [hp, Function.update_self, hat]
  · rw [hp, Function.update_self]
    exact hwait

theorem Orderly.leave (h : a.Orderly) (hg : b.queue.gate = a.queue.gate.leave p)
    (hp : b.places = update a.places p place) (hat : place.atGate = false) : b.Orderly := by
  rw [orderly_iff, hg]
  refine (orderly_iff.mp h).leave (places_of_others hp) ?_ ?_
  · rw [hp, Function.update_self, hat]
    exact Bool.false_ne_true
  · rw [hp, Function.update_self]
    rintro rfl
    cases hat

theorem Orderly.turn (h : a.Orderly) (hl : a.Lawful) (t : Turn asked takes a b) : b.Orderly := by
  cases t with
  | tell | join | close => exact h.of_same rfl rfl
  | @accept q _ _ batch => exact h.of_same (q.gate_enqueue batch) rfl
  | @start q P _ hc hs =>
    have haway : P .worker = .away := hl.started.mp hs
    exact h.move q.gate_start rfl (by simp [haway, Place.atGate]) nofun
  | appear hp => exact h.move rfl rfl (by simp [hp, Place.atGate]) nofun
  | wake hp => exact h.move rfl rfl (by simp [hp, Place.atGate]) nofun
  | sleep hp => exact h.move rfl rfl (by simp [hp, Place.atGate]) nofun
  | stop hp => exact h.move rfl rfl (by rcases hp with hp | hp <;> simp [hp, Place.atGate]) nofun
  | standInLine hp => exact h.join rfl rfl (by simp [hp, Place.atGate]) rfl nofun
  | ask i batch k hp => exact h.join rfl rfl (by simp [hp, Place.atGate]) rfl nofun
  | take batch rest hp hg => exact h.move rfl rfl (by simp [hp, Place.atGate]) fun _ => hg
  | serve i batch k hp hg => exact h.move rfl rfl (by simp [hp, Place.atGate]) fun _ => hg
  | findNothing => exact h.leave rfl rfl rfl
  | handBack place hp hplace => exact h.leave rfl rfl (by rcases hplace with rfl | rfl <;> rfl)
  | depart => exact h.leave rfl rfl rfl

theorem Orderly.turns (h : a.Orderly) (hl : a.Lawful) (t : Turns asked takes a b) : b.Orderly := by
  induction t with
  | refl => exact h
  | tail t t' ih => exact ih.turn (hl.turns t) t'

/-- At most one party has a delivery under way. -/
theorem Orderly.busy_unique (h : a.Orderly) {q : Party} (hp : a.places p = .busy)
    (hq : a.places q = .busy) : p = q :=
  (orderly_iff.mp h).eq_of_holds hp (h.holds q hq)

/-- If somebody is at the gate, somebody there holds it. -/
theorem Orderly.exists_holds (h : a.Orderly) (hp : (a.places p).atGate = true) :
    ∃ q, a.queue.gate.holds q = true ∧ (a.places q).atGate = true := by
  have hmem := (h.mem p).mpr hp
  cases hline : a.queue.gate.line with
  | nil =>
    rw [hline] at hmem
    cases hmem
  | cons q rest =>
    refine ⟨q, Gate.holds_iff.mpr (by rw [hline]; rfl), ?_⟩
    rw [← h.mem, hline]
    exact List.mem_cons_self

end Scene

namespace ScriptedQueue

/-- The delivery that a party has under way. -/
def delivery? (w : ScriptedQueue) : Party → Option HandlerRun
  | .worker =>
    match w.worker with
    | .delivering run => some run
    | _ => none
  | .call i =>
    match w.calls[i]? with
    | some (.delivering run) => some run
    | _ => none

theorem place_eq_busy_iff {w : ScriptedQueue} {p : Party} :
    w.place p = .busy ↔ ∃ run, w.delivery? p = some run := by
  cases p with
  | worker => cases hw : w.worker <;> simp [place, delivery?, hw, WorkerPoint.place]
  | call i =>
    cases hc : w.calls[i]? with
    | none => simp [place, delivery?, hc]
    | some c => cases c <;> simp [place, delivery?, hc, QueueCall.place]

/-- In every run the line names those who are at the gate. -/
theorem orderly_run (n : Nat) (script : List (List HandlerAct)) (actions : List QueueAction) :
    ((new n script).run actions).scene.Lawful ∧ ((new n script).run actions).scene.Orderly := by
  refine run_scene_induction n script actions ?_ fun a b hl h t => h.turn hl t
  refine ⟨List.nodup_nil, ?_, ?_⟩
  · intro p
    cases p <;> exact ⟨nofun, nofun⟩
  · intro p hp
    cases p <;> cases hp

end ScriptedQueue

end Multicast
