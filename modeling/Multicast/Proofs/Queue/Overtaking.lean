import Mathlib.Data.List.Induction
import Multicast.Proofs.Queue.Conservation
import Multicast.Proofs.Queue.Handling

/-! How long a direct delivery waits. It stands in one line with the worker, and the worker goes to
the end of the line after each batch, so that the worker hands over one batch at most while the
delivery waits, and this only if it stood in line before. The direct deliveries begin in the order
of their calls. -/

namespace Multicast

open Function (update)

/-- The number of the call whose delivery begins with this event. -/
def QueueEvent.directStart? : QueueEvent → Option Nat
  | .handling (.call i) _ _ => some i
  | _ => none

theorem QueueEvent.directStart?_eq_some {e : QueueEvent} {i : Nat} :
    e.directStart? = some i ↔ ∃ b kind, e = .handling (.call i) b kind := by
  constructor
  · intro h
    cases e with
    | handling p b kind =>
      cases p with
      | worker => cases h
      | call j =>
        obtain rfl := Option.some.inj h
        exact ⟨b, kind, rfl⟩
    | accepted | discarded | handled | handlerCrashed | workerStarted | workerStopped
    | workerLost => cases h
  · rintro ⟨b, kind, rfl⟩
    rfl

/-- Calls come in the order of their numbers; the worker may come anywhere. -/
def Party.Before : Party → Party → Prop
  | .call i, .call j => i < j
  | _, _ => True

theorem Party.before_worker (p : Party) : p.Before .worker := by
  cases p <;> trivial

/-- Whether a party at this place has no delivery under way and does not stand in line for one. -/
def Place.isOut : Place → Bool
  | .asking _ _ | .busy => false
  | _ => true

namespace Scene

variable {a b : Scene} {i n : Nat} {asked : Batch Nat → DeliveryKind → Prop} {takes : Prop}

/-! ### The worker and a call that waits -/

/-- How many batches the worker has handed over. -/
def handedOver (a : Scene) : Nat := (a.history.flatMap QueueEvent.takenBatch).length

theorem flatMap_takenBatch (history : List QueueEvent) :
    (history.filter QueueEvent.isHandling).flatMap QueueEvent.takenBatch =
      history.flatMap QueueEvent.takenBatch := by
  induction history with
  | nil => rfl
  | cons e rest ih =>
    rw [List.flatMap_cons, ← ih]
    cases e <;> rfl

theorem handedOver_of_begun (h : b.history.filter QueueEvent.isHandling =
    a.history.filter QueueEvent.isHandling) : b.handedOver = a.handedOver := by
  rw [handedOver, handedOver, ← flatMap_takenBatch, h, flatMap_takenBatch]

/-- The worker stands in line before the given call. -/
def Ahead (i : Nat) (a : Scene) : Prop :=
  a.places .worker = .inLine ∧ [Party.worker, .call i].Sublist a.queue.gate.line

/-- The worker has handed over no more than `n` batches, and fewer while it stands in line before
the given call. -/
structure Bounded (i n : Nat) (a : Scene) : Prop where
  atMost : a.handedOver ≤ n
  ahead : a.Ahead i → a.handedOver < n

theorem Bounded.of_same (h : a.Bounded i n) (hn : b.handedOver = a.handedOver)
    (hahead : b.Ahead i → a.Ahead i) : b.Bounded i n :=
  ⟨hn ▸ h.atMost, fun hb => hn ▸ h.ahead (hahead hb)⟩

/-- A worker that is not in line does not stand before the call. -/
theorem Bounded.of_elsewhere (h : a.Bounded i n) (hn : b.handedOver = a.handedOver)
    (hplace : b.places .worker ≠ .inLine) : b.Bounded i n :=
  h.of_same hn fun hb => absurd hb.1 hplace

/-- A call that is made stands behind the given one, as everybody who comes later. -/
theorem Bounded.ask {j : Nat} (h : a.Bounded i n) (hne : i ≠ j) (batch : Batch Nat)
    (kind : DeliveryKind) :
    Bounded i n ⟨{ a.queue with gate := a.queue.gate.join (.call j) },
      update a.places (.call j) (.asking batch kind), a.history⟩ := by
  refine h.of_same rfl fun hahead => ⟨?_, Gate.sublist_of_join hahead.2 (by simpa using hne)⟩
  exact (worker_of_update_call a.places j (.asking batch kind)).symm.trans hahead.1

/-- Who stands in line is not the one who has just moved elsewhere. -/
theorem asking_of_update {P : Party → Place} {p q : Party} {place : Place} {batch : Batch Nat}
    {kind : DeliveryKind} (hplace : ∀ x k, place ≠ .asking x k)
    (h : update P p place q = .asking batch kind) : q ≠ p ∧ P q = .asking batch kind := by
  by_cases hq : q = p
  · subst hq
    rw [Function.update_self] at h
    exact absurd h (hplace batch kind)
  · rw [Function.update_of_ne hq] at h
    exact ⟨hq, h⟩

/-- Who has left the line does not come back to it. -/
theorem Turn.asking_of_asking {p : Party} {batch : Batch Nat} {kind : DeliveryKind}
    (t : Turn (fun _ _ => False) takes a b) (hb : b.places p = .asking batch kind) :
    a.places p = .asking batch kind := by
  cases t with
  | tell | join | accept | close => exact hb
  | start | appear | wake | standInLine | stop | take | findNothing | sleep | serve | depart =>
    exact (asking_of_update (by simp) hb).2
  | handBack place hp hplace =>
    refine (asking_of_update ?_ hb).2
    rcases hplace with rfl | rfl <;> simp
  | ask j x k hp hc hasked => exact hasked.elim

/-- The worker that takes a batch stands before everybody else in line, and goes to the end of the
line afterwards. -/
theorem Turn.bounded {batch : Batch Nat} {kind : DeliveryKind}
    (t : Turn (fun _ _ => False) takes a b) (ho : a.Orderly)
    (hb : b.places (.call i) = .asking batch kind) (h : a.Bounded i n) : b.Bounded i n := by
  have ha : a.places (.call i) = .asking batch kind := t.asking_of_asking hb
  have hmem : .call i ∈ a.queue.gate.line := (ho.mem _).mpr (by rw [ha]; rfl)
  cases t with
  | tell e he =>
    refine h.of_same ?_ id
    cases e with
    | accepted | discarded | handling | workerStarted => exact he.elim
    | handled | handlerCrashed | workerStopped | workerLost => rfl
  | join | close => exact h.of_same rfl id
  | @accept q _ _ x =>
    exact h.of_same rfl fun hahead => ⟨hahead.1, q.gate_enqueue x ▸ hahead.2⟩
  | start | appear | wake | stop | findNothing | sleep => exact h.of_elsewhere rfl (by simp)
  | handBack place hp hplace =>
    refine h.of_elsewhere rfl ?_
    rcases hplace with rfl | rfl <;> simp
  | @standInLine q P _ hp =>
    -- the worker was not in the line, so that it stands behind the call now
    have hout : .worker ∉ q.gate.line := fun hin => by
      have hat : (P .worker).atGate = true := (ho.mem _).mp hin
      rw [hp] at hat
      cases hat
    refine h.of_same rfl fun hahead => ?_
    have hbefore := Gate.sublist_of_join hahead.2 (by simp)
    exact absurd (hbefore.subset List.mem_cons_self) hout
  | @take q P hist x rest hp hg =>
    obtain ⟨others, hline⟩ := List.head?_eq_some_iff.mp (Gate.holds_iff.mp hg)
    have hothers : .call i ∈ others := by
      have hin : .call i ∈ Party.worker :: others := hline ▸ hmem
      simpa using hin
    have hahead : Ahead i ⟨q, P, hist⟩ := by
      refine ⟨hp, ?_⟩
      rw [hline]
      exact (List.singleton_sublist.mpr hothers).cons_cons _
    have hfewer := h.ahead hahead
    have hone : (Scene.handedOver
        ⟨{ q with heap := rest }, update P .worker .busy, .handling .worker x .live :: hist⟩) =
          handedOver ⟨q, P, hist⟩ + 1 := by
      simp [handedOver, QueueEvent.takenBatch]
    refine ⟨?_, fun hahead => ?_⟩
    · rw [hone]
      exact hfewer
    · simp [Ahead] at hahead
  | ask j x k hp hc hasked => exact hasked.elim
  | @serve q P _ j =>
    refine h.of_same rfl fun hahead => ⟨?_, hahead.2⟩
    exact (worker_of_update_call P j .busy).symm.trans hahead.1
  | @depart q P _ j =>
    refine h.of_same rfl fun hahead => ⟨?_, hahead.2.trans List.erase_sublist⟩
    exact (worker_of_update_call P j .away).symm.trans hahead.1

/-! ### The calls among each other -/

/-- The calls whose deliveries have begun, the latest first. -/
def starts (a : Scene) : List Nat := a.history.filterMap QueueEvent.directStart?

/-- Of the calls made so far, which are `n`, those in line stand in the order of their numbers, and
behind those whose deliveries have begun, in this order too. -/
structure InTurn (n : Nat) (a : Scene) : Prop where
  line : a.queue.gate.line.Pairwise Party.Before
  lineKnown : ∀ i, .call i ∈ a.queue.gate.line → i < n
  starts : a.starts.Pairwise (· > ·)
  startsKnown : ∀ j ∈ a.starts, j < n
  behind : ∀ j ∈ a.starts, ∀ i batch kind, a.places (.call i) = .asking batch kind → j < i

/-- Nothing begins, and who stands in line stood there before. -/
theorem InTurn.of_sublist (h : a.InTurn n) (hs : b.starts = a.starts)
    (hline : b.queue.gate.line.Sublist a.queue.gate.line)
    (hasks : ∀ p batch kind, b.places p = .asking batch kind → a.places p = .asking batch kind) :
    b.InTurn n where
  line := h.line.sublist hline
  lineKnown i hi := h.lineKnown i (hline.subset hi)
  starts := hs ▸ h.starts
  startsKnown := hs ▸ h.startsKnown
  behind j hj i batch kind hi := h.behind j (hs ▸ hj) i batch kind (hasks _ _ _ hi)

theorem InTurn.mono {m : Nat} (h : a.InTurn n) (hn : n ≤ m) : a.InTurn m where
  line := h.line
  lineKnown i hi := (h.lineKnown i hi).trans_le hn
  starts := h.starts
  startsKnown j hj := (h.startsKnown j hj).trans_le hn
  behind := h.behind

/-- A call that is made stands behind all the others. -/
theorem InTurn.ask (h : a.InTurn n) (batch : Batch Nat) (kind : DeliveryKind) :
    Scene.InTurn (n + 1) ⟨{ a.queue with gate := a.queue.gate.join (.call n) },
      update a.places (.call n) (.asking batch kind), a.history⟩ where
  line := by
    refine List.pairwise_append.mpr ⟨h.line, List.pairwise_singleton _ _, ?_⟩
    intro p hp q hq
    rw [List.mem_singleton.mp hq]
    cases p with
    | worker => trivial
    | call i => exact h.lineKnown i hp
  lineKnown i hi := by
    rcases List.mem_append.mp hi with hi | hi
    · exact (h.lineKnown i hi).trans n.lt_succ_self
    · rw [Party.call.inj (List.mem_singleton.mp hi)]
      exact n.lt_succ_self
  starts := h.starts
  startsKnown j hj := (h.startsKnown j hj).trans n.lt_succ_self
  behind j hj i batch' kind' hi := by
    by_cases hin : i = n
    · rw [hin]
      exact h.startsKnown j hj
    · refine h.behind j hj i batch' kind' ?_
      exact (Function.update_of_ne (by simpa using hin) ..).symm.trans hi

theorem InTurn.turn (h : a.InTurn n) (ho : a.Orderly) (t : Turn (fun _ _ => False) takes a b) :
    b.InTurn n := by
  have hasks p batch kind (hb : b.places p = .asking batch kind) :
      a.places p = .asking batch kind := t.asking_of_asking hb
  cases t with
  | tell e he =>
    refine h.of_sublist ?_ (List.Sublist.refl _) hasks
    cases e with
    | accepted | discarded | handling | workerStarted => exact he.elim
    | handled | handlerCrashed | workerStopped | workerLost => rfl
  | join | close | appear | wake | stop | take | sleep =>
    exact h.of_sublist rfl (List.Sublist.refl _) hasks
  | @accept q _ _ x => exact h.of_sublist rfl (q.gate_enqueue x ▸ List.Sublist.refl _) hasks
  | @start q => exact h.of_sublist rfl (q.gate_start ▸ List.Sublist.refl _) hasks
  | findNothing | handBack | depart => exact h.of_sublist rfl List.erase_sublist hasks
  | standInLine =>
    refine ⟨?_, ?_, h.starts, h.startsKnown, ?_⟩
    · refine List.pairwise_append.mpr ⟨h.line, List.pairwise_singleton _ _, ?_⟩
      intro p _ q hq
      rw [List.mem_singleton.mp hq]
      exact p.before_worker
    · intro i hi
      exact h.lineKnown i (by simpa using hi)
    · intro j hj i batch kind hi
      exact h.behind j hj i batch kind (hasks _ _ _ hi)
  | ask j x k hp hc hasked => exact hasked.elim
  | @serve q P _ j x k hp hg =>
    obtain ⟨others, hline⟩ := List.head?_eq_some_iff.mp (Gate.holds_iff.mp hg)
    have hmem {i : Nat} {batch kind} (hi : P (.call i) = .asking batch kind) :
        .call i ∈ q.gate.line := (ho.mem _).mpr (by simp only [hi]; rfl)
    refine ⟨h.line, h.lineKnown, ?_, ?_, ?_⟩
    · exact List.pairwise_cons.mpr ⟨fun i hi => h.behind i hi j x k hp, h.starts⟩
    · intro i hi
      rcases List.mem_cons.mp hi with rfl | hi
      · exact h.lineKnown i (hmem hp)
      · exact h.startsKnown i hi
    · intro i hi i' batch kind hasking
      obtain ⟨hne, hbefore⟩ := asking_of_update (by simp) hasking
      rcases List.mem_cons.mp hi with rfl | hi
      · -- whoever has the gate stands before everybody else in line
        have hothers : .call i' ∈ others := by
          have hin := hmem hbefore
          rw [hline] at hin
          exact (List.mem_cons.mp hin).resolve_left hne
        have hpairs : (Party.call i :: others).Pairwise Party.Before := hline ▸ h.line
        exact (List.pairwise_cons.mp hpairs).1 _ hothers
      · exact h.behind i hi i' batch kind hbefore

theorem InTurn.turns (h : a.InTurn n) (hl : a.Lawful) (ho : a.Orderly)
    (t : Turns (fun _ _ => False) takes a b) : b.InTurn n := by
  induction t with
  | refl => exact h
  | tail t t' ih => exact ih.turn (ho.turns hl t) t'

theorem Turns.bounded {batch : Batch Nat} {kind : DeliveryKind}
    (t : Turns (fun _ _ => False) takes a b) (hl : a.Lawful) (ho : a.Orderly)
    (hb : b.places (.call i) = .asking batch kind) (h : a.Bounded i n) : b.Bounded i n := by
  induction t with
  | refl => exact h
  | tail t t' ih => exact t'.bounded (ho.turns hl t) hb (ih (t'.asking_of_asking hb))

/-! ### While a delivery is under way -/

theorem isOut_update {P : Party → Place} {p q : Party} {place : Place}
    (hplace : place.isOut = true) (h : (P p).isOut = true) :
    (update P q place p).isOut = true := by
  by_cases hp : p = q
  · rwa [hp, Function.update_self]
  · rwa [Function.update_of_ne hp]

theorem busy_or_isOut_update {P : Party → Place} {p q : Party} {place : Place}
    (hplace : place.isOut = true) (h : P p = .busy) :
    update P q place p = .busy ∨ (update P q place p).isOut = true := by
  by_cases hp : p = q
  · rw [hp, Function.update_self]
    exact .inr hplace
  · rw [Function.update_of_ne hp]
    exact .inl h

/-- Where nobody asks for the gate and the worker takes nothing, who has left does not come back. -/
theorem Turn.isOut {p : Party} (t : Turn (fun _ _ => False) False a b)
    (h : (a.places p).isOut = true) : (b.places p).isOut = true := by
  cases t with
  | tell | join | accept | close => exact h
  | start | appear | wake | standInLine | stop | findNothing | sleep | depart =>
    exact isOut_update rfl h
  | handBack place hp hplace =>
    refine isOut_update ?_ h
    rcases hplace with rfl | rfl <;> rfl
  | take batch rest hp hg hb hc ht => exact ht.elim
  | ask j x k hp hc hasked => exact hasked.elim
  | @serve q P _ j x k hp =>
    have hne : p ≠ .call j := by
      rintro rfl
      have hout : (P (.call j)).isOut = true := h
      rw [hp] at hout
      cases hout
    exact (congrArg Place.isOut (Function.update_of_ne hne ..)).trans h

/-- While a party has a delivery under way no other one begins. -/
theorem Turn.begun_of_busy {p : Party} (t : Turn (fun _ _ => False) False a b) (ho : a.Orderly)
    (h : a.places p = .busy) :
    b.history.filter QueueEvent.isHandling = a.history.filter QueueEvent.isHandling ∧
      (b.places p = .busy ∨ (b.places p).isOut = true) := by
  cases t with
  | tell e he =>
    refine ⟨?_, .inl h⟩
    cases e with
    | accepted | discarded | handling | workerStarted => exact he.elim
    | handled | handlerCrashed | workerStopped | workerLost => rfl
  | join | accept | close => exact ⟨rfl, .inl h⟩
  | start | appear | wake | standInLine | stop | findNothing | sleep | depart =>
    exact ⟨rfl, busy_or_isOut_update rfl h⟩
  | handBack place hp hplace =>
    refine ⟨rfl, busy_or_isOut_update ?_ h⟩
    rcases hplace with rfl | rfl <;> rfl
  | take batch rest hp hg hb hc ht => exact ht.elim
  | ask j x k hp hc hasked => exact hasked.elim
  | @serve q P _ j x k hp hg =>
    -- whoever begins has the gate, and so has the party that is at work
    obtain rfl : p = .call j := (orderly_iff.mp ho).eq_of_holds h hg
    cases h.symm.trans hp

theorem Turns.begun_of_busy {p : Party} (t : Turns (fun _ _ => False) False a b) (hl : a.Lawful)
    (ho : a.Orderly) (ha : a.places p = .busy) :
    (b.history.filter QueueEvent.isHandling = a.history.filter QueueEvent.isHandling ∧
      b.places p = .busy) ∨ (b.places p).isOut = true := by
  induction t with
  | refl => exact .inl ⟨rfl, ha⟩
  | tail t t' ih =>
    rcases ih with ⟨hbegun, hbusy⟩ | hout
    · obtain ⟨hlast, hbusy' | hout⟩ := t'.begun_of_busy (ho.turns hl t) hbusy
      · exact .inl ⟨hlast.trans hbegun, hbusy'⟩
      · exact .inr hout
    · exact .inr (t'.isOut hout)

end Scene

namespace ScriptedQueue

variable {w v : ScriptedQueue} {p : Party} {i n : Nat} {course : HandlerRun} {a : QueueAction}

/-- Only who calls for a direct delivery asks for the gate from outside the worker. -/
theorem turns_apply_of_ne (hl : w.scene.Lawful) (hne : ∀ b k, a ≠ .deliverNow b k) :
    Scene.Turns (fun _ _ => False) True w.scene (w.apply a).scene :=
  turns_apply hl hne fun _ _ => trivial

theorem length_calls_apply (w : ScriptedQueue) (a : QueueAction) :
    w.calls.length ≤ (w.apply a).calls.length := by
  by_cases hrel : ∃ acts, a = .release acts
  · obtain ⟨acts, rfl⟩ := hrel
    exact (length_calls_release w acts).ge
  · rcases calls_apply w (not_exists.mp hrel) with hcalls | ⟨j, d, -, hcalls⟩ | ⟨d, hcalls, -⟩
    · rw [hcalls]
    · rw [hcalls, List.length_set]
    · rw [hcalls, List.length_append]
      exact Nat.le_add_right ..

theorem inTurn_apply (hr : w.Regular) (h : w.scene.InTurn w.calls.length) (a : QueueAction) :
    (w.apply a).scene.InTurn (w.apply a).calls.length := by
  by_cases hask : ∃ b k, a = .deliverNow b k
  · obtain ⟨b, k, rfl⟩ := hask
    cases hc : w.queue.closed with
    | true =>
      simp only [apply, scene_deliverNow_of_closed b k hc]
      exact h.mono (length_calls_apply w (.deliverNow b k))
    | false =>
      simp only [apply, scene_deliverNow b k hc, calls_deliverNow, List.length_append,
        List.length_singleton]
      exact h.ask b k
  · have hne (b : Batch Nat) (k : DeliveryKind) : a ≠ .deliverNow b k :=
      fun h => hask ⟨b, k, h⟩
    have hturns := turns_apply_of_ne hr.lawful hne
    exact (h.turns hr.lawful hr.orderly hturns).mono (length_calls_apply w a)

theorem inTurn_run (n : Nat) (script : List (List HandlerAct)) (actions : List QueueAction) :
    ((new n script).run actions).scene.InTurn ((new n script).run actions).calls.length := by
  induction actions using List.reverseRecOn with
  | nil => exact ⟨.nil, nofun, .nil, nofun, nofun⟩
  | append_singleton before a ih =>
    rw [run_append]
    exact inTurn_apply (regular_run n script before) ih a

/-- What has become of a direct delivery that was called for in `u`: it waits in line, its delivery
has begun, or the queue has closed; the worker has handed over no more than `n` batches until it
began. -/
inductive Outcome (u : ScriptedQueue) (i n : Nat) (w : ScriptedQueue) : Prop
  | waits (b : Batch Nat) (k : DeliveryKind) (hcall : w.calls[i]? = some (.inLine b k))
      (hbounded : w.scene.Bounded i n)
  | closed (hc : w.queue.closed = true) (hn : w.scene.handedOver ≤ n)
  | begun (h : Happened (·.directStart? = some i) u w)

/-- A direct delivery that comes to the head of the line begins, or finds the queue closed. -/
theorem outcome_run_call {u : ScriptedQueue} {b : Batch Nat} {k : DeliveryKind}
    (hu : u.history <:+ w.history) (hcall : w.calls[i]? = some (.inLine b k))
    (hbounded : w.scene.Bounded i n) : Outcome u i n (w.apply (.run (.call i))) := by
  cases hready : w.ready (.call i) with
  | false =>
    rw [apply_run_of_waiting hready]
    exact .waits b k hcall hbounded
  | true =>
    rw [apply_run_of_ready hready]
    cases hc : w.queue.closed with
    | true =>
      rw [step_call_of_closed hcall hc]
      exact .closed hc hbounded.atMost
    | false =>
      have hstep : w.step (.call i) = (w.beginHandling (.call i) b k).1.setCall i
          (.delivering (w.beginHandling (.call i) b k).2) := by
        simp only [step, callStep, hcall, hc, Bool.false_eq_true, if_false]
      have hstarts : (QueueEvent.handling (.call i) b k).directStart? = some i := rfl
      rw [hstep]
      exact .begun (happened_note hu hstarts)

theorem Outcome.apply {u : ScriptedQueue} (h : Outcome u i n w) (hr : w.Regular)
    (hu : u.history <:+ w.history) (a : QueueAction) : Outcome u i n (w.apply a) := by
  cases h with
  | closed hc hn =>
    have hwinds := (winds_apply hr.lawful hc a).2
    exact .closed hwinds.closed ((Scene.handedOver_of_begun hwinds.begun).trans_le hn)
  | begun h => exact .begun (h.of_later (history_suffix_apply hr.lawful a))
  | waits b k hcall hbounded =>
    by_cases hrun : a = .run (.call i)
    · rw [hrun]
      exact outcome_run_call hu hcall hbounded
    have hgoes : (w.apply a).calls[i]? = some (.inLine b k) :=
      getElem?_calls_of_idle hcall nofun hrun
    by_cases hask : ∃ b k, a = .deliverNow b k
    · obtain ⟨b', k', rfl⟩ := hask
      refine .waits b k hgoes ?_
      cases hc : w.queue.closed with
      | true =>
        rw [ScriptedQueue.apply, scene_deliverNow_of_closed b' k' hc]
        exact hbounded
      | false =>
        rw [ScriptedQueue.apply, scene_deliverNow b' k' hc]
        exact hbounded.ask (List.getElem?_eq_some_iff.mp hcall).1.ne b' k'
    · have hne (b : Batch Nat) (k : DeliveryKind) : a ≠ .deliverNow b k :=
        fun h => hask ⟨b, k, h⟩
      have hturns := turns_apply_of_ne hr.lawful hne
      exact .waits b k hgoes (hturns.bounded hr.lawful hr.orderly (place_call hgoes) hbounded)

theorem Outcome.run {u : ScriptedQueue} (h : Outcome u i n w) (hr : w.Regular)
    (hu : u.history <:+ w.history) (actions : List QueueAction) :
    Outcome u i n (w.run actions) := by
  induction actions generalizing w with
  | nil => exact h
  | cons a rest ih =>
    exact ih (h.apply hr hu a) (hr.apply a) (hu.trans (history_suffix_apply hr.lawful a))

/-- While a delivery is under way no other one begins. -/
theorem begun_apply_of_delivery {course' : HandlerRun} (hr : w.Regular)
    (hd : w.delivery? p = some course)
    (hd' : (w.apply a).delivery? p = some course') : (w.apply a).begun = w.begun := by
  have hbusy := place_eq_busy_iff.mpr ⟨course, hd⟩
  by_cases hask : ∃ b k, a = .deliverNow b k
  · obtain ⟨b, k, rfl⟩ := hask
    cases hc : w.queue.closed <;> simp [begun, apply, deliverNow, Queue.ask, addCall, hc]
  by_cases hwait : ∃ q, a = .run q ∧ w.ready q = false
  · obtain ⟨q, rfl, hready⟩ := hwait
    rw [apply_run_of_waiting hready]
  have htakes : a = .run .worker → w.worker = .inLine → False := by
    -- a worker in line that can go on has the gate
    rintro rfl hw
    cases hready : w.ready .worker with
    | false => exact hwait ⟨.worker, rfl, hready⟩
    | true =>
      simp only [ready, hw, Queue.workerReady] at hready
      obtain rfl := (Scene.orderly_iff.mp hr.orderly).eq_of_holds hbusy hready
      cases hw.symm.trans (delivery?_worker.mp hd)
  have hturns : Scene.Turns (fun _ _ => False) False w.scene (w.apply a).scene :=
    turns_apply hr.lawful (fun b k h => hask ⟨b, k, h⟩) htakes
  rcases hturns.begun_of_busy hr.lawful hr.orderly hbusy with ⟨hbegun, -⟩ | hout
  · exact hbegun
  · have hbusy' : (w.apply a).scene.places p = .busy := place_eq_busy_iff.mpr ⟨course', hd'⟩
    rw [hbusy'] at hout
    cases hout

/-- A handler that asks for a direct delivery on its own queue, and waits for it, keeps the gate for
good. -/
theorem begun_run_of_itself (hr : w.Regular) (hd : w.delivery? p = some course)
    (hwait : course.wait = .itself) (actions : List QueueAction) :
    (w.run actions).delivery? p = some course ∧ (w.run actions).begun = w.begun := by
  induction actions generalizing w with
  | nil => exact ⟨hd, rfl⟩
  | cons a rest ih =>
    have hready : w.ready p = false := by
      rw [ready_of_delivery hd]
      simp only [handlerReady, hwait]
    have hgoes : (w.apply a).delivery? p = some course := by
      rcases delivery_cases hr.lawful hd a with hsame | ⟨acts, next, -, hnext, -⟩ |
        ⟨-, hready', -⟩ | ⟨rfl, hnone, -⟩
      · exact hsame
      · obtain ⟨hheld, -⟩ := released?_eq_some.mp hnext
        cases hwait.symm.trans hheld
      · cases hready.symm.trans hready'
      · rw [apply_run_of_waiting hready] at hnone
        cases hd.symm.trans hnone
    obtain ⟨hlast, hbegun⟩ := ih (hr.apply a) hgoes
    exact ⟨hlast, hbegun.trans (begun_apply_of_delivery hr hd hgoes)⟩

/-- Until the delivery begins, or for good, the worker has handed over no more than `n` batches. -/
theorem Outcome.handedOver_le {u : ScriptedQueue} {since : List QueueEvent} (h : Outcome u i n v)
    (hsince : v.history = since ++ u.history)
    (hunbegun : ∀ b kind, .handling (.call i) b kind ∉ since) : v.scene.handedOver ≤ n := by
  cases h with
  | waits _ _ _ hbounded => exact hbounded.atMost
  | closed _ hn => exact hn
  | begun hbegun =>
    obtain ⟨since', e, hsince', he, hstarts⟩ := hbegun
    obtain rfl := List.append_cancel_right (hsince.symm.trans hsince')
    obtain ⟨b, kind, rfl⟩ := QueueEvent.directStart?_eq_some.mp hstarts
    exact absurd he (hunbegun b kind)

/-! ### Every run -/

theorem outcome_deliverNow (b : Batch Nat) (kind : DeliveryKind)
    (hn : w.scene.handedOver ≤ n) (hline : w.worker = .inLine → w.scene.handedOver < n) :
    Outcome w w.calls.length n (w.deliverNow b kind) := by
  have hcall : (w.deliverNow b kind).calls[w.calls.length]? =
      some (if w.queue.closed then .returned (some false) else .inLine b kind) := by
    rw [calls_deliverNow, List.getElem?_concat_length]
  cases hc : w.queue.closed with
  | true =>
    have hscene := scene_deliverNow_of_closed b kind hc
    refine .closed ?_ (hscene ▸ hn)
    exact (congrArg (·.queue.closed) hscene).trans hc
  | false =>
    rw [hc] at hcall
    refine .waits b kind hcall ?_
    rw [scene_deliverNow b kind hc]
    refine ⟨hn, fun hahead => hline (place_worker_eq_inLine.mp ?_)⟩
    exact (Scene.worker_of_update_call w.place w.calls.length (.asking b kind)).symm.trans hahead.1

/-- A direct delivery is overtaken by one live batch at most. In every run, between the call for it
and its begin, or the end of the run if it does not begin, the worker hands over one batch at most,
and none if it does not stand in line at the call. The direct deliveries begin in the order of their
calls, and those that wait come after those that have begun. A handler that asks for one on its own
queue waits for it in vain, and nothing begins any more. -/
theorem direct_delivery_overtaken_at_most_once (n : Nat) (script : List (List HandlerAct))
    (before : List QueueAction) (b : Batch Nat) (kind : DeliveryKind)
    (after : List QueueAction) :
    let w := (new n script).run before
    let v := (w.deliverNow b kind).run after
    (∀ since, v.history = since ++ w.history →
      (∀ b' kind', .handling (.call w.calls.length) b' kind' ∉ since) →
      (since.flatMap QueueEvent.takenBatch).length ≤ 1 ∧
        (w.worker ≠ .inLine → since.flatMap QueueEvent.takenBatch = [])) ∧
    (v.history.filterMap QueueEvent.directStart?).Pairwise (· > ·) ∧
    (∀ i b' kind', v.calls[i]? = some (.inLine b' kind') →
      ∀ j ∈ v.history.filterMap QueueEvent.directStart?, j < i) ∧
    ∀ p course, v.delivery? p = some course → course.wait = .itself →
      ∀ more, (v.run more).delivery? p = some course ∧ (v.run more).begun = v.begun := by
  intro w v
  have hr : w.Regular := regular_run n script before
  have hv : v = (new n script).run (before ++ .deliverNow b kind :: after) :=
    (run_append (new n script) before (.deliverNow b kind :: after)).symm
  have hrv : v.Regular := hv ▸ regular_run n script _
  have hinTurn : v.scene.InTurn v.calls.length := hv ▸ inTurn_run n script _
  refine ⟨?_, hinTurn.starts, ?_, ?_⟩
  · intro since hsince hunbegun
    -- as many as the worker may hand over, according to where it stands at the call
    have hmost {m : Nat} (hline : w.worker = .inLine → 0 < m) :
        (since.flatMap QueueEvent.takenBatch).length ≤ m := by
      have hfirst := outcome_deliverNow (n := w.scene.handedOver + m) b kind
        (Nat.le_add_right ..) fun hw => Nat.lt_add_of_pos_right (hline hw)
      have hlast : Outcome w w.calls.length (w.scene.handedOver + m) v :=
        hfirst.run (hr.apply (.deliverNow b kind))
          (history_suffix_apply hr.lawful (.deliverNow b kind)) after
      have hcount : v.scene.handedOver ≤ w.scene.handedOver + m :=
        hlast.handedOver_le hsince hunbegun
      have hsplit : v.scene.handedOver =
          (since.flatMap QueueEvent.takenBatch).length + w.scene.handedOver := by
        simp only [Scene.handedOver, scene, hsince, List.flatMap_append, List.length_append]
      omega
    refine ⟨hmost fun _ => Nat.one_pos, fun hw => ?_⟩
    exact List.eq_nil_of_length_eq_zero (Nat.le_zero.mp (hmost fun h => absurd h hw))
  · intro i b' kind' hcall j hj
    exact hinTurn.behind j hj i b' kind' (place_call hcall)
  · intro p course hd hwait more
    exact begun_run_of_itself hrv hd hwait more

/-- The worker stands in line when a ping is asked for, and two batches are pending. It hands over
the first one, and waits for the ping before it goes on. -/
example :
    let w := (new 8 []).run [.start, .enqueue ⟨[⟨1, ""⟩]⟩, .enqueue ⟨[⟨2, ""⟩]⟩, .run .worker]
    let v := (w.deliverNow ⟨[⟨3, ""⟩]⟩ .ping).run (List.replicate 9 (.run .worker))
    v.scene.handedOver = 1 ∧ v.queue.size = 1 := by
  decide +kernel

end ScriptedQueue

end Multicast
