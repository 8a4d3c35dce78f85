import Mathlib.Logic.Function.Basic
import Mathlib.Logic.Relation
import Multicast.Proofs.Heap.Contents
import Multicast.Proofs.Queue.Run

/-! What can happen in a queue at once. A scene holds a queue, where each party stands that deals
with it, and its history; `Scene.Turn` lists the turns that a scene can take. Every action is a
chain of turns, so that what a turn keeps holds in every run; it holds then at the moments within an
action too, where no party waits but another one might step in between. -/

namespace Multicast

open Function (update)

/-- Where a party stands that deals with a queue. -/
inductive Place
  /-- It has not come yet, or does not deal with the queue any more. -/
  | away
  /-- The worker was started and has not run yet. -/
  | fresh
  /-- The worker is at the head of its loop. -/
  | turning
  /-- The worker stands in line for the gate. -/
  | inLine
  /-- A direct delivery stands in line for the gate. -/
  | asking (batch : Batch Nat) (kind : DeliveryKind)
  /-- It has the gate, and the handler is at work on its delivery. -/
  | busy
  /-- The worker has found nothing and has not gone to sleep yet. -/
  | idle
  | asleep
  | stopped
  | crashed
  deriving DecidableEq

/-- Whether a party at this place has asked for the gate and not given it back. -/
def Place.atGate : Place → Bool
  | .inLine | .asking _ _ | .busy => true
  | _ => false

def WorkerPoint.place : WorkerPoint HandlerRun → Place
  | .absent => .away
  | .fresh => .fresh
  | .inLine => .inLine
  | .delivering _ => .busy
  | .asleep => .asleep
  | .stopped => .stopped
  | .crashed => .crashed

def QueueCall.place : QueueCall → Place
  | .inLine b k => .asking b k
  | .delivering _ => .busy
  | .joining | .returned _ | .crashed => .away

/-- Whether an event tells of no batch on its way and of no worker that comes. -/
def QueueEvent.IsQuiet : QueueEvent → Prop
  | .accepted _ | .discarded _ | .handling _ _ _ | .workerStarted => False
  | _ => True

/-- A queue with those who deal with it. -/
structure Scene where
  queue : Queue Nat
  places : Party → Place
  /-- What has happened, the latest first. -/
  history : List QueueEvent

variable {asked : Batch Nat → DeliveryKind → Prop} {takes : Prop}

/-- The turns that a scene can take, where a direct delivery asks for the gate only with a batch and
a kind that are `asked` for, and the worker takes a batch only if it `takes` any. -/
inductive Scene.Turn (asked : Batch Nat → DeliveryKind → Prop) (takes : Prop) :
    Scene → Scene → Prop
  | tell {q P h} (e : QueueEvent) (he : e.IsQuiet) : Turn asked takes ⟨q, P, h⟩ ⟨q, P, e :: h⟩
  /-- Somebody asks for the end of the worker. -/
  | join {q P h} : Turn asked takes ⟨q, P, h⟩ ⟨q.join.1, P, h⟩
  | accept {q P h} (b : Batch Nat) (hc : q.closed = false) :
      Turn asked takes ⟨q, P, h⟩ ⟨(q.enqueue b).1, P, .accepted b :: h⟩
  | close {q P h} : Turn asked takes ⟨q, P, h⟩ ⟨q.close, P, .discarded q.heap.toList :: h⟩
  | start {q P h} (hc : q.closed = false) (hs : q.started = false) :
      Turn asked takes ⟨q, P, h⟩ ⟨q.start.1, update P .worker .fresh, h⟩
  /-- The worker runs for the first time. -/
  | appear {q P h} (hp : P .worker = .fresh) :
      Turn asked takes ⟨q, P, h⟩ ⟨q, update P .worker .turning, .workerStarted :: h⟩
  | wake {q P h} (hp : P .worker = .asleep) :
      Turn asked takes ⟨q, P, h⟩
        ⟨{ q with signal := q.signal.resume }, update P .worker .turning, h⟩
  | standInLine {q P h} (hp : P .worker = .turning) (hc : q.closed = false) :
      Turn asked takes ⟨q, P, h⟩
        ⟨{ q with gate := q.gate.join .worker }, update P .worker .inLine, h⟩
  | stop {q P h} (hp : P .worker = .turning ∨ P .worker = .asleep) (hc : q.closed = true) :
      Turn asked takes ⟨q, P, h⟩ ⟨q, update P .worker .stopped, .workerStopped :: h⟩
  /-- The worker holds the gate and hands over the batch that stands first. -/
  | take {q P h} (b : Batch Nat) (rest : Heap Nat) (hp : P .worker = .inLine)
      (hg : q.gate.holds .worker = true) (hb : q.heap.pop? = some (b, rest))
      (hc : q.closed = false) (ht : takes) :
      Turn asked takes ⟨q, P, h⟩
        ⟨{ q with heap := rest }, update P .worker .busy, .handling .worker b .live :: h⟩
  /-- The worker holds the gate, finds nothing and gives the gate back. -/
  | findNothing {q P h} (hp : P .worker = .inLine) (hg : q.gate.holds .worker = true)
      (hb : q.heap.pop? = none) :
      Turn asked takes ⟨q, P, h⟩ ⟨q.leave .worker, update P .worker .idle, h⟩
  | sleep {q P h} (hp : P .worker = .idle) :
      Turn asked takes ⟨q, P, h⟩ ⟨{ q with signal := q.signal.await }, update P .worker .asleep, h⟩
  /-- The worker gives the gate back after a delivery; it comes to the head of its loop unless the
  handler has crashed. -/
  | handBack {q P h} (place : Place) (hp : P .worker = .busy)
      (hplace : place = .turning ∨ place = .crashed) :
      Turn asked takes ⟨q, P, h⟩ ⟨q.leave .worker, update P .worker place, h⟩
  | ask {q P h} (i : Nat) (b : Batch Nat) (k : DeliveryKind) (hp : P (.call i) = .away)
      (hc : q.closed = false) (ha : asked b k) :
      Turn asked takes ⟨q, P, h⟩
        ⟨{ q with gate := q.gate.join (.call i) }, update P (.call i) (.asking b k), h⟩
  /-- A direct delivery holds the gate and hands over its batch. -/
  | serve {q P h} (i : Nat) (b : Batch Nat) (k : DeliveryKind) (hp : P (.call i) = .asking b k)
      (hg : q.gate.holds (.call i) = true) (hc : q.closed = false) :
      Turn asked takes ⟨q, P, h⟩ ⟨q, update P (.call i) .busy, .handling (.call i) b k :: h⟩
  /-- A direct delivery gives the gate back. -/
  | depart {q P h} (i : Nat) (hp : (P (.call i)).atGate = true) :
      Turn asked takes ⟨q, P, h⟩ ⟨q.leave (.call i), update P (.call i) .away, h⟩

/-- A chain of turns. -/
abbrev Scene.Turns (asked : Batch Nat → DeliveryKind → Prop) (takes : Prop) :
    Scene → Scene → Prop :=
  Relation.ReflTransGen (Scene.Turn asked takes)

/-- What holds of a scene at every moment: a worker stands somewhere just if it was started, and
nothing is pending in a closed queue. -/
structure Scene.Lawful (a : Scene) : Prop where
  started : a.queue.started = false ↔ a.places .worker = .away
  emptied : a.queue.closed = true → a.queue.heap.contents = 0

namespace Scene

variable {a b c : Scene}

/-- The worker stands where it stood when a call moves. -/
theorem worker_of_update_call (P : Party → Place) (i : Nat) (place : Place) :
    update P (.call i) place .worker = P .worker := Function.update_of_ne (by simp) ..

theorem Turns.snoc (h : Turns asked takes a b) (t : Turn asked takes b c) : Turns asked takes a c :=
  Relation.ReflTransGen.tail h t

/-- Where the worker was started, it stands elsewhere after it has moved. -/
theorem Lawful.of_move (h : a.Lawful) (hs : b.queue.started = a.queue.started)
    (he : b.queue.closed = true → b.queue.heap.contents = 0)
    (hp : a.places .worker ≠ .away) (hp' : b.places .worker ≠ .away) : b.Lawful :=
  ⟨hs ▸ iff_of_false (mt h.started.mp hp) hp', he⟩

theorem Lawful.turn (h : a.Lawful) (t : Turn asked takes a b) : b.Lawful := by
  cases t with
  | tell | join => exact ⟨h.started, h.emptied⟩
  | @accept q P _ batch hc =>
    have hq : (q.enqueue batch).1 =
        { q with heap := q.heap.push batch, signal := q.signal.notify } := by
      simp only [Queue.enqueue, hc, Bool.false_eq_true, if_false]
    refine ⟨?_, ?_⟩
    · rw [hq]
      exact h.started
    · rw [hq]
      intro hclosed
      cases hc.symm.trans hclosed
  | close => exact ⟨h.started, fun _ => rfl⟩
  | @start q P _ hc hs =>
    have hq : q.start.1 = { q with started := true, unjoined := true } := by
      simp only [Queue.start, hc, hs, Bool.or_self, Bool.false_eq_true, if_false]
    refine ⟨?_, ?_⟩
    · rw [hq]
      simp
    · rw [hq]
      exact h.emptied
  | appear hp => exact h.of_move rfl h.emptied (by simp [hp]) (by simp)
  | wake hp => exact h.of_move rfl h.emptied (by simp [hp]) (by simp)
  | standInLine hp => exact h.of_move rfl h.emptied (by simp [hp]) (by simp)
  | stop hp => exact h.of_move rfl h.emptied (by rcases hp with hp | hp <;> simp [hp]) (by simp)
  | take batch rest hp hg hb hc =>
    refine h.of_move rfl ?_ (by simp [hp]) (by simp)
    intro hclosed
    cases hc.symm.trans hclosed
  | findNothing hp => exact h.of_move rfl h.emptied (by simp [hp]) (by simp)
  | sleep hp => exact h.of_move rfl h.emptied (by simp [hp]) (by simp)
  | handBack place hp hplace =>
    refine h.of_move rfl h.emptied (by simp [hp]) ?_
    rcases hplace with rfl | rfl <;> simp
  | ask | serve | depart => exact ⟨h.started, h.emptied⟩

theorem Lawful.turns (h : a.Lawful) (t : Turns asked takes a b) : b.Lawful := by
  induction t with
  | refl => exact h
  | tail _ t ih => exact ih.turn t

/-- Nothing can be taken from a closed queue. -/
theorem Lawful.open_of_pop? (h : a.Lawful) {batch : Batch Nat} {rest : Heap Nat}
    (hb : a.queue.heap.pop? = some (batch, rest)) : a.queue.closed = false := by
  by_contra hc
  have hnone := (Heap.pop?_eq_none_iff _).mpr (h.emptied (eq_true_of_ne_false hc))
  rw [hb] at hnone
  cases hnone

end Scene

namespace ScriptedQueue

variable {w v : ScriptedQueue} {a : Scene} {p : Party} {i : Nat}

def place (w : ScriptedQueue) : Party → Place
  | .worker => w.worker.place
  | .call i => ((w.calls[i]?).map QueueCall.place).getD .away

/-- The queue with the places that its worker and its calls tell of. -/
def scene (w : ScriptedQueue) : Scene := ⟨w.queue, w.place, w.history⟩

theorem place_call {c : QueueCall} (hc : w.calls[i]? = some c) : w.place (.call i) = c.place := by
  simp only [place, hc, Option.map_some, Option.getD_some]

/-- Where the calls are the same, only the worker may stand elsewhere. -/
theorem scene_of_calls (hc : v.calls = w.calls) :
    v.scene = ⟨v.queue, update w.place .worker v.worker.place, v.history⟩ := by
  have hplace : v.place = update w.place .worker v.worker.place := by
    funext q
    cases q with
    | worker => rfl
    | call j =>
      have hne : Party.call j ≠ .worker := by simp
      rw [Function.update_of_ne hne]
      simp only [place, hc]
  rw [scene, hplace]

theorem turns_of_calls (hc : v.calls = w.calls)
    (h : Scene.Turns asked takes a ⟨v.queue, update w.place .worker v.worker.place, v.history⟩) :
    Scene.Turns asked takes a v.scene := by
  rw [scene_of_calls hc]
  exact h

theorem place_setCall {c d : QueueCall} (hc : w.calls[i]? = some d) :
    (w.setCall i c).place = update w.place (.call i) c.place := by
  have hi : i < w.calls.length := (List.getElem?_eq_some_iff.mp hc).1
  funext q
  cases q with
  | worker => rfl
  | call j =>
    by_cases hj : j = i
    · subst hj
      simp [place, setCall, hi]
    · have hne : Party.call j ≠ .call i := by simpa using hj
      rw [Function.update_of_ne hne]
      simp [place, setCall, List.getElem?_set_ne (Ne.symm hj)]

theorem place_length (w : ScriptedQueue) : w.place (.call w.calls.length) = .away := by
  simp [place]

theorem place_addCall (w : ScriptedQueue) (c : QueueCall) :
    (w.addCall c).place = update w.place (.call w.calls.length) c.place := by
  funext q
  cases q with
  | worker => rfl
  | call j =>
    by_cases hj : j = w.calls.length
    · subst hj
      simp [place, addCall]
    · have hne : Party.call j ≠ .call w.calls.length := by simpa using hj
      rw [Function.update_of_ne hne]
      rcases Nat.lt_or_gt_of_ne hj with hlt | hgt
      · simp only [place, addCall, List.getElem?_append_left hlt]
      · have hlen : (w.calls ++ [c]).length ≤ j := by
          rw [List.length_append, List.length_singleton]
          exact hgt
        simp only [place, addCall, List.getElem?_eq_none hlen,
          List.getElem?_eq_none (Nat.le_of_lt hgt)]

/-- A call that neither asks for the gate nor has it is not seen. -/
theorem scene_addCall {c : QueueCall} (hc : c.place = .away) : (w.addCall c).scene = w.scene := by
  have hplace : (w.addCall c).place = w.place := by
    rw [place_addCall, hc, ← place_length w, Function.update_eq_self]
  unfold scene
  rw [hplace]
  rfl

/-- A call that goes on without a change of its place is not seen. -/
theorem scene_setCall {c d : QueueCall} (hc : w.calls[i]? = some d) (hp : c.place = d.place) :
    (w.setCall i c).scene = w.scene := by
  have hplace : (w.setCall i c).place = w.place := by
    rw [place_setCall hc, hp, ← place_call hc, Function.update_eq_self]
  unfold scene
  rw [hplace]
  rfl

theorem scene_new_lawful (n : Nat) (script : List (List HandlerAct)) :
    (new n script).scene.Lawful :=
  ⟨iff_of_true rfl rfl, fun _ => rfl⟩

/-! ### The operations on a queue -/

theorem turns_enqueue (w : ScriptedQueue) (b : Batch Nat) :
    Scene.Turns asked takes w.scene (w.enqueue b).1.scene := by
  cases hc : w.queue.closed with
  | true =>
    have hsame : (w.enqueue b).1 = w := by simp [enqueue, Queue.enqueue, hc]
    rw [hsame]
  | false =>
    have haccept : Scene.Turn asked takes w.scene
        ⟨(w.queue.enqueue b).1, w.place, .accepted b :: w.history⟩ := .accept b hc
    have hscene : (w.enqueue b).1.scene =
        ⟨(w.queue.enqueue b).1, w.place, .accepted b :: w.history⟩ := by
      simp only [enqueue, Queue.enqueue, hc, Bool.false_eq_true, if_false]
      rfl
    rw [hscene]
    exact .single haccept

theorem turns_close (w : ScriptedQueue) : Scene.Turns asked takes w.scene w.close.scene :=
  .single .close

theorem turns_start (w : ScriptedQueue) : Scene.Turns asked takes w.scene w.start.1.scene := by
  by_cases hr : (w.queue.closed || w.queue.started) = true
  · have hsame : w.start.1 = w := by simp only [start, Queue.start, hr, if_true]
    rw [hsame]
  · obtain ⟨hc, hs⟩ := Bool.or_eq_false_iff.mp (Bool.eq_false_iff.mpr hr)
    have hq : w.queue.start = ({ w.queue with started := true, unjoined := true }, true) := by
      simp only [Queue.start, hc, hs, Bool.or_self, Bool.false_eq_true, if_false]
    have hstart : Scene.Turn asked takes w.scene
        ⟨w.queue.start.1, update w.place .worker .fresh, w.history⟩ := .start hc hs
    rw [hq] at hstart
    simp only [start, hq]
    exact turns_of_calls (w := w) rfl (.single hstart)

theorem turns_join (w : ScriptedQueue) :
    Scene.Turns asked takes w.scene (scene { w with queue := w.queue.join.1 }) :=
  .single .join

/-- A direct delivery asks for the gate if the queue is open. -/
theorem scene_deliverNow (b : Batch Nat) (k : DeliveryKind) (hc : w.queue.closed = false) :
    (w.deliverNow b k).scene = ⟨{ w.queue with gate := w.queue.gate.join (.call w.calls.length) },
      update w.place (.call w.calls.length) (.asking b k), w.history⟩ := by
  simp only [deliverNow, Queue.ask, hc, Bool.false_eq_true, if_false]
  rw [scene, place_addCall]
  rfl

theorem scene_deliverNow_of_closed (b : Batch Nat) (k : DeliveryKind)
    (hc : w.queue.closed = true) : (w.deliverNow b k).scene = w.scene := by
  have hrefused : w.deliverNow b k = w.addCall (.returned (some false)) := by
    simp only [deliverNow, Queue.ask, hc, if_true]
  rw [hrefused, scene_addCall rfl]

theorem turns_deliverNow (w : ScriptedQueue) {b : Batch Nat} {k : DeliveryKind} (ha : asked b k) :
    Scene.Turns asked takes w.scene (w.deliverNow b k).scene := by
  cases hc : w.queue.closed with
  | true => rw [scene_deliverNow_of_closed b k hc]
  | false =>
    rw [scene_deliverNow b k hc]
    have hask : Scene.Turn asked takes w.scene
        ⟨{ w.queue with gate := w.queue.gate.join (.call w.calls.length) },
          update w.place (.call w.calls.length) (.asking b k), w.history⟩ :=
      .ask w.calls.length b k (place_length w) hc ha
    exact .single hask

theorem turns_shutdown (w : ScriptedQueue) : Scene.Turns asked takes w.scene w.shutdown.scene := by
  have hjoined : Scene.Turns asked takes w.scene
      (scene { w.close with queue := w.close.queue.join.1 }) :=
    (turns_close w).trans (turns_join w.close)
  cases hu : w.close.queue.unjoined with
  | true =>
    have hs : w.shutdown = { w.close with queue := w.close.queue.join.1 }.addCall .joining := by
      simp only [shutdown, Queue.join, hu]
    rw [hs, scene_addCall rfl]
    exact hjoined
  | false =>
    have hs : w.shutdown = w.close.addCall (.returned none) := by
      simp only [shutdown, Queue.join, hu]
    rw [hs, scene_addCall rfl]
    exact turns_close w

/-- A release passes the calls over until it comes to a delivery that is held. -/
theorem exists_of_releaseCalls {acts : List HandlerAct} {calls calls' : List QueueCall}
    (hr : releaseCalls acts calls = some calls') :
    ∃ j run next, calls[j]? = some (.delivering run) ∧ run.released? acts = some next ∧
      calls' = calls.set j (.delivering next) := by
  induction calls generalizing calls' with
  | nil => cases hr
  | cons c rest ih =>
    have hskip : (releaseCalls acts rest).map (c :: ·) = some calls' →
        ∃ j run next, (c :: rest)[j]? = some (.delivering run) ∧ run.released? acts = some next ∧
          calls' = (c :: rest).set j (.delivering next) := by
      intro hr
      obtain ⟨rest', hrest, rfl⟩ := Option.map_eq_some_iff.mp hr
      obtain ⟨j, run, next, hrun, hnext, rfl⟩ := ih hrest
      exact ⟨j + 1, run, next, hrun, hnext, rfl⟩
    cases c with
    | delivering run =>
      simp only [releaseCalls] at hr
      split at hr
      · rename_i next hnext
        obtain rfl := Option.some.inj hr
        exact ⟨0, run, next, rfl, hnext, rfl⟩
      · exact hskip hr
    | inLine | joining | returned | crashed => exact hskip hr

/-- A release leaves each call where it stands. -/
theorem map_place_releaseCalls {acts : List HandlerAct} {calls calls' : List QueueCall}
    (hr : releaseCalls acts calls = some calls') :
    calls'.map QueueCall.place = calls.map QueueCall.place := by
  obtain ⟨j, run, next, hrun, -, rfl⟩ := exists_of_releaseCalls hr
  -- a delivery stays one, whatever acts it is given
  have hplace : (calls.map QueueCall.place)[j]? = some (QueueCall.delivering next).place := by
    rw [List.getElem?_map, hrun]
    rfl
  obtain ⟨hj, hsame⟩ := List.getElem?_eq_some_iff.mp hplace
  rw [List.map_set, ← hsame, List.set_getElem_self]

theorem scene_release (w : ScriptedQueue) (acts : List HandlerAct) :
    (w.release acts).1.scene = w.scene := by
  have hplace : (w.release acts).1.place = w.place := by
    unfold release
    dsimp only
    split
    · rename_i run hrun
      -- only a worker that delivers can be released
      cases hw : w.worker with
      | delivering run' =>
        funext q
        cases q with
        | worker => simp only [place, hw, WorkerPoint.place]
        | call j => rfl
      | _ => simp [hw] at hrun
    · split
      · rename_i calls hr
        funext q
        cases q with
        | worker => rfl
        | call j =>
          have hmap := congrArg (·[j]?) (map_place_releaseCalls hr)
          simp only [List.getElem?_map] at hmap
          simp only [place, hmap]
      · rfl
  have hqueue : (w.release acts).1.queue = w.queue ∧ (w.release acts).1.history = w.history := by
    unfold release
    dsimp only
    split
    · exact ⟨rfl, rfl⟩
    · split <;> exact ⟨rfl, rfl⟩
  unfold scene
  rw [hplace, hqueue.1, hqueue.2]

/-! ### The handler -/

/-- What a handler does while it is at work: it takes turns, leaves the calls alone, and leaves a
worker alone that was started. -/
structure Handles (asked : Batch Nat → DeliveryKind → Prop) (takes : Prop)
    (w v : ScriptedQueue) : Prop where
  turns : Scene.Turns asked takes w.scene v.scene
  calls : v.calls = w.calls
  worker : w.queue.started = true → v.worker = w.worker ∧ v.queue.started = true

theorem Handles.refl (w : ScriptedQueue) : Handles asked takes w w :=
  ⟨.refl, rfl, fun hs => ⟨rfl, hs⟩⟩

theorem Handles.trans {u : ScriptedQueue} (h : Handles asked takes w u)
    (h' : Handles asked takes u v) : Handles asked takes w v := by
  refine ⟨h.turns.trans h'.turns, h'.calls.trans h.calls, ?_⟩
  intro hs
  obtain ⟨hworker, hstarted⟩ := h.worker hs
  obtain ⟨hworker', hstarted'⟩ := h'.worker hstarted
  exact ⟨hworker'.trans hworker, hstarted'⟩

theorem handles_enqueue (w : ScriptedQueue) (b : Batch Nat) :
    Handles asked takes w (w.enqueue b).1 := by
  refine ⟨turns_enqueue w b, ?_, fun hs => ?_⟩
  · cases hc : w.queue.closed <;> simp [enqueue, Queue.enqueue, hc, note]
  · cases hc : w.queue.closed <;> simp [enqueue, Queue.enqueue, hc, note, hs]

theorem handles_start (w : ScriptedQueue) : Handles asked takes w w.start.1 := by
  refine ⟨turns_start w, ?_, fun hs => ?_⟩
  · unfold start
    split <;> rfl
  · simp [start, Queue.start, hs]

theorem handles_close (w : ScriptedQueue) : Handles asked takes w w.close :=
  ⟨turns_close w, rfl, fun hs => ⟨rfl, hs⟩⟩

theorem handles_join (w : ScriptedQueue) :
    Handles asked takes w { w with queue := w.queue.join.1 } :=
  ⟨turns_join w, rfl, fun hs => ⟨rfl, hs⟩⟩

theorem handles_learnEnd (w : ScriptedQueue) : Handles asked takes w w.learnEnd := by
  unfold learnEnd
  split
  · exact ⟨.single (.tell .workerLost trivial), rfl, fun hs => ⟨rfl, hs⟩⟩
  · exact .refl w

theorem handles_handlerAct (w : ScriptedQueue) (p : Party) (run : HandlerRun) (act : HandlerAct)
    (rest : List HandlerAct) : Handles asked takes w (w.handlerAct p run act rest).1 := by
  unfold handlerAct
  cases act with
  | sleep | hold | crash => exact .refl w
  | enqueue b =>
    dsimp only
    split
    · exact .refl w
    · exact handles_enqueue w b
  | start =>
    dsimp only
    split
    · exact .refl w
    · exact handles_start w
  | close =>
    dsimp only
    split
    · exact .refl w
    · exact handles_close w
  | shutdown =>
    have hjoined : Handles asked takes w { w.close with queue := w.close.queue.join.1 } :=
      (handles_close w).trans (handles_join w.close)
    dsimp only
    split
    · exact .refl w
    · split
      · exact hjoined
      · exact hjoined
  | deliver =>
    dsimp only
    split
    · exact .refl w
    · split <;> exact .refl w

theorem handles_handlerStep (w : ScriptedQueue) (p : Party) (run : HandlerRun) :
    Handles asked takes w (w.handlerStep p run).1 := by
  unfold handlerStep
  cases run.wait with
  | workerEnd =>
    -- before it goes on the handler is told of the end of the worker
    cases run.acts with
    | nil => exact handles_learnEnd w
    | cons act rest => exact (handles_learnEnd w).trans (handles_handlerAct _ p run act rest)
  | nothing | moment | release | itself =>
    cases run.acts with
    | nil => exact .refl w
    | cons act rest => exact handles_handlerAct w p run act rest

/-! ### The worker and the direct deliveries -/

/-- At the head of its loop the worker stands in line again, or stops. -/
theorem turns_workerTurn
    (h : Scene.Turns asked takes a ⟨w.queue, update w.place .worker .turning, w.history⟩) :
    Scene.Turns asked takes a w.workerTurn.scene := by
  have hturning : update w.place .worker Place.turning .worker = .turning :=
    Function.update_self ..
  cases hc : w.queue.closed with
  | true =>
    have hstop := h.snoc (.stop (.inl hturning) hc)
    rw [Function.update_idem] at hstop
    simp only [workerTurn, Queue.workerTurn, Queue.ask, hc, if_true]
    exact turns_of_calls (w := w) rfl hstop
  | false =>
    have hline := h.snoc (.standInLine hturning hc)
    rw [Function.update_idem] at hline
    simp only [workerTurn, Queue.workerTurn, Queue.ask, hc, Bool.false_eq_true, if_false]
    simp only [hc] at hline
    exact turns_of_calls (w := w) rfl hline

/-- The worker holds the gate: it takes a batch, or finds nothing. -/
theorem turns_inLine (hl : w.scene.Lawful) (ht : takes) (hw : w.worker = .inLine)
    (hg : w.queue.gate.holds .worker = true) :
    Scene.Turns asked takes w.scene w.workerStep.scene := by
  have hplace : w.place .worker = .inLine := by simp only [place, hw, WorkerPoint.place]
  unfold workerStep Queue.takeNext
  rw [hw]
  cases hp : w.queue.heap.pop? with
  | none =>
    have hnothing : Scene.Turn asked takes w.scene
        ⟨w.queue.leave .worker, update w.place .worker .idle, w.history⟩ :=
      .findNothing hplace hg hp
    have hsleep := (Scene.Turns.snoc (.single hnothing) (.sleep (Function.update_self ..)))
    rw [Function.update_idem] at hsleep
    exact turns_of_calls (w := w) rfl hsleep
  | some popped =>
    obtain ⟨b, rest⟩ := popped
    have hopen : w.queue.closed = false := hl.open_of_pop? hp
    have htake : Scene.Turn asked takes w.scene
        ⟨{ w.queue with heap := rest }, update w.place .worker .busy,
          .handling .worker b .live :: w.history⟩ := .take b rest hplace hg hp hopen ht
    simp only [hopen, Bool.false_eq_true, if_false]
    simp only [hopen] at htake
    exact turns_of_calls (w := w) rfl (.single htake)

theorem turns_workerStep (hl : w.scene.Lawful) (ht : w.worker = .inLine → takes)
    (hready : w.ready .worker = true) :
    Scene.Turns asked takes w.scene w.workerStep.scene := by
  cases hw : w.worker with
  | inLine =>
    simp only [ready, Queue.workerReady, hw] at hready
    exact turns_inLine hl (ht hw) hw hready
  | fresh =>
    have hplace : w.place .worker = .fresh := by simp only [place, hw, WorkerPoint.place]
    have happear : Scene.Turn asked takes w.scene
        ⟨w.queue, update w.place .worker .turning, .workerStarted :: w.history⟩ := .appear hplace
    simp only [workerStep, hw]
    exact turns_workerTurn (w := w.note .workerStarted) (.single happear)
  | delivering run =>
    have hplace : w.place .worker = .busy := by simp only [place, hw, WorkerPoint.place]
    have hstarted : w.queue.started = true := by
      rw [← Bool.not_eq_false]
      intro hs
      have haway : w.place .worker = .away := hl.started.mp hs
      rw [hplace] at haway
      cases haway
    have hhandles : Handles asked takes w (w.handlerStep .worker run).1 :=
      handles_handlerStep w .worker run
    have hbusy (u : ScriptedQueue) (hu : u.worker = w.worker) : u.place .worker = .busy := by
      rw [← hplace]
      simp only [place, hu]
    simp only [workerStep, hw]
    rcases hstep : w.handlerStep .worker run with ⟨u, progress⟩
    rw [hstep] at hhandles
    have hplaceu := hbusy u (hhandles.worker hstarted).1
    cases progress with
    | running run' =>
      have hscene : scene { u with worker := .delivering run' } = u.scene := by
        have hsame : update u.place .worker .busy = u.place := by
          rw [← hplaceu, Function.update_eq_self]
        refine (scene_of_calls (v := { u with worker := .delivering run' }) (w := u) rfl).trans ?_
        rw [show (WorkerPoint.delivering run').place = .busy from rfl, hsame]
        rfl
      rw [hscene]
      exact hhandles.turns
    | done note =>
      refine turns_workerTurn ?_
      have hback := hhandles.turns.snoc (.handBack .turning hplaceu (.inl rfl))
      exact hback.snoc (.tell _ trivial)
    | crashed =>
      have hback := hhandles.turns.snoc (.handBack .crashed hplaceu (.inr rfl))
      have htold := hback.snoc (.tell (.handlerCrashed .worker run.batch) trivial)
      exact turns_of_calls (w := u) rfl htold
  | asleep =>
    have hplace : w.place .worker = .asleep := by simp only [place, hw, WorkerPoint.place]
    cases hc : w.queue.closed with
    | true =>
      have hstop : Scene.Turn asked takes w.scene
          ⟨w.queue, update w.place .worker .stopped, .workerStopped :: w.history⟩ :=
        .stop (.inr hplace) hc
      have hstep :
          w.workerStep = ({ w with worker := .stopped } : ScriptedQueue).note .workerStopped := by
        simp only [workerStep, hw, hc, if_true]
      rw [hstep]
      exact turns_of_calls (w := w) rfl (.single hstop)
    | false =>
      have hwake : Scene.Turn asked takes w.scene
          ⟨{ w.queue with signal := w.queue.signal.resume }, update w.place .worker .turning,
            w.history⟩ := .wake hplace
      have hstep : w.workerStep = workerTurn
          { w with queue := { w.queue with signal := w.queue.signal.resume } } := by
        simp only [workerStep, hw, hc, Bool.false_eq_true, if_false]
      rw [hstep]
      exact turns_workerTurn (.single hwake)
  | absent | stopped | crashed => simp [ready, Queue.workerReady, hw] at hready

theorem turns_callStep (hready : w.ready (.call i) = true) :
    Scene.Turns asked takes w.scene (w.callStep i).scene := by
  cases hcall : w.calls[i]? with
  | none => simp [ready, hcall] at hready
  | some c =>
    have hplace := place_call hcall
    -- what is told and what the gate is given back to does not depend on the place of the call
    have hdepart {u : ScriptedQueue} (hu : Handles asked takes w u) {d : QueueCall}
        (hd : d.place = .away) (hat : c.place.atGate = true) :
        Scene.Turns asked takes w.scene
          (({ u with queue := u.queue.leave (.call i) } : ScriptedQueue).setCall i d).scene := by
      have hcallu : u.calls[i]? = some c := hu.calls ▸ hcall
      have hatu : (u.place (.call i)).atGate = true := by rw [place_call hcallu, hat]
      have hscene :
          (({ u with queue := u.queue.leave (.call i) } : ScriptedQueue).setCall i d).scene =
            ⟨u.queue.leave (.call i), update u.place (.call i) .away, u.history⟩ := by
        rw [scene, place_setCall (w := { u with queue := u.queue.leave (.call i) }) hcallu, hd]
        rfl
      rw [hscene]
      exact hu.turns.snoc (.depart i hatu)
    unfold callStep
    simp only [hcall]
    cases c with
    | inLine b k =>
      dsimp only
      split
      · exact hdepart (.refl w) rfl rfl
      · rename_i hc
        simp only [ready, hcall] at hready
        have hserve : Scene.Turn asked takes w.scene
            ⟨w.queue, update w.place (.call i) .busy, .handling (.call i) b k :: w.history⟩ :=
          .serve i b k hplace hready (Bool.eq_false_iff.mpr hc)
        have hscene : ((w.beginHandling (.call i) b k).1.setCall i
            (.delivering (w.beginHandling (.call i) b k).2)).scene =
            ⟨w.queue, update w.place (.call i) .busy, .handling (.call i) b k :: w.history⟩ := by
          rw [scene, place_setCall (w := (w.beginHandling (.call i) b k).1) hcall]
          rfl
        rw [hscene]
        exact .single hserve
    | delivering run =>
      have hhandles : Handles asked takes w (w.handlerStep (.call i) run).1 :=
        handles_handlerStep w (.call i) run
      dsimp only
      rcases hstep : w.handlerStep (.call i) run with ⟨u, progress⟩
      rw [hstep] at hhandles
      have hcallu : u.calls[i]? = some (.delivering run) := hhandles.calls ▸ hcall
      cases progress with
      | running run' =>
        dsimp only
        rw [scene_setCall (c := .delivering run') hcallu rfl]
        exact hhandles.turns
      | done note => exact (hdepart hhandles rfl rfl).snoc (.tell _ trivial)
      | crashed => exact (hdepart hhandles rfl rfl).snoc (.tell _ trivial)
    | joining =>
      have hlearns : Handles asked takes w w.learnEnd := handles_learnEnd w
      have hcallu : w.learnEnd.calls[i]? = some .joining := hlearns.calls ▸ hcall
      dsimp only
      rw [scene_setCall (c := .returned none) hcallu rfl]
      exact hlearns.turns
    | returned | crashed => exact .refl

/-! ### Every run -/

/-- Every action is a chain of turns; only a worker in line that runs takes a batch. -/
theorem turns_apply (hl : w.scene.Lawful) {action : QueueAction}
    (ha : ∀ b k, action = .deliverNow b k → asked b k)
    (ht : action = .run .worker → w.worker = .inLine → takes) :
    Scene.Turns asked takes w.scene (w.apply action).scene := by
  cases action with
  | run p =>
    simp only [apply]
    split
    · rename_i hready
      cases p with
      | worker => exact turns_workerStep hl (ht rfl) hready
      | call i => exact turns_callStep hready
    · exact .refl
  | elapse ms => exact .refl
  | enqueue b => exact turns_enqueue w b
  | start => exact turns_start w
  | deliverNow b k => exact turns_deliverNow w (ha b k rfl)
  | close => exact turns_close w
  | shutdown => exact turns_shutdown w
  | release acts =>
    simp only [apply]
    rw [scene_release]

/-- Whatever is asked for. -/
theorem turns_apply_any (hl : w.scene.Lawful) (action : QueueAction) :
    Scene.Turns (fun _ _ => True) True w.scene (w.apply action).scene :=
  turns_apply hl (fun _ _ _ => trivial) fun _ _ => trivial

/-- What turns keep of lawful scenes holds in every run. -/
theorem run_scene_induction {I : Scene → Prop} (n : Nat) (script : List (List HandlerAct))
    (actions : List QueueAction) (start : I (new n script).scene)
    (turn : ∀ a b, a.Lawful → I a → Scene.Turn (fun b k => .deliverNow b k ∈ actions) True a b →
      I b) :
    ((new n script).run actions).scene.Lawful ∧ I ((new n script).run actions).scene := by
  have hturns {a b : Scene} (hl : a.Lawful) (hi : I a)
      (h : Scene.Turns (fun b k => .deliverNow b k ∈ actions) True a b) : I b := by
    induction h with
    | refl => exact hi
    | tail h t ih => exact turn _ _ (hl.turns h) ih t
  refine run_induction (I := fun w => w.scene.Lawful ∧ I w.scene) ?_
    ⟨scene_new_lawful n script, start⟩
  rintro w action hmem ⟨hl, hi⟩
  have hasked : ∀ b k, action = .deliverNow b k → .deliverNow b k ∈ actions := by
    rintro b k rfl
    exact hmem
  have h := turns_apply hl hasked fun _ _ => trivial
  exact ⟨hl.turns h, hturns hl hi h⟩

end ScriptedQueue

end Multicast
