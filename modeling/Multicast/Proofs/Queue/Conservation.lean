import Mathlib.Algebra.Order.Group.Multiset
import Mathlib.Tactic.Abel
import Multicast.Proofs.Heap.Contents
import Multicast.Proofs.Queue.Run

/-! Where the batches of a queue are. Each batch that a queue has accepted is pending, or the worker
has handed it to the handler, or a close has discarded it, and it is only one of these. -/

namespace Multicast

namespace QueueEvent

/-- The batch that the queue has accepted. -/
def acceptedBatch : QueueEvent → List (Batch Nat)
  | .accepted b => [b]
  | _ => []

/-- The batch that the worker has taken from the queue and handed to the handler. -/
def takenBatch : QueueEvent → List (Batch Nat)
  | .handling .worker b _ => [b]
  | _ => []

/-- The batches that a close has discarded. -/
def discardedBatches : QueueEvent → List (Batch Nat)
  | .discarded bs => bs
  | _ => []

/-- The batch that a direct delivery has handed to the handler as one of the given kind. -/
def directBatch (kind : DeliveryKind) : QueueEvent → List (Batch Nat)
  | .handling (.call _) b k => if k = kind then [b] else []
  | _ => []

/-- The batch handed to the handler as one of the given kind, by whomever. -/
def handedBatch (kind : DeliveryKind) : QueueEvent → List (Batch Nat)
  | .handling _ b k => if k = kind then [b] else []
  | _ => []

/-- Whether the kind of a handover fits who makes it: the worker hands over live batches, a direct
delivery those of a kind that is asked for. -/
def Proper (asked : DeliveryKind → Prop) : QueueEvent → Prop
  | .handling .worker _ k => k = .live
  | .handling (.call _) _ k => asked k
  | _ => True

end QueueEvent

namespace ScriptedQueue

/-- The batches that the events of a queue have told of so far. -/
def tally (f : QueueEvent → List (Batch Nat)) (w : ScriptedQueue) : Multiset (Batch Nat) :=
  w.history.flatMap f

/-- The batches that the queue has accepted. -/
def accepted (w : ScriptedQueue) : Multiset (Batch Nat) := w.tally QueueEvent.acceptedBatch

/-- The batches that the worker has handed to the handler. -/
def taken (w : ScriptedQueue) : Multiset (Batch Nat) := w.tally QueueEvent.takenBatch

/-- The batches that the closing of the queue has discarded. -/
def discarded (w : ScriptedQueue) : Multiset (Batch Nat) := w.tally QueueEvent.discardedBatches

/-- The batches that direct deliveries have handed to the handler as ones of the given kind. -/
def direct (w : ScriptedQueue) (kind : DeliveryKind) : Multiset (Batch Nat) :=
  w.tally (QueueEvent.directBatch kind)

/-- The batches handed to the handler as ones of the given kind, by whomever. -/
def handed (w : ScriptedQueue) (kind : DeliveryKind) : Multiset (Batch Nat) :=
  w.tally (QueueEvent.handedBatch kind)

theorem tally_of_history {w v : ScriptedQueue} {e : QueueEvent}
    (h : v.history = e :: w.history) (f : QueueEvent → List (Batch Nat)) :
    v.tally f = f e + w.tally f := by
  simp [tally, h]

/-- The accounts of a queue: they balance, an open queue has discarded nothing, in a closed one
nothing is left behind, and what is handed over has a kind that fits. -/
structure Balanced (asked : DeliveryKind → Prop) (w : ScriptedQueue) : Prop where
  balance : w.accepted = w.taken + w.queue.heap.contents + w.discarded
  keeps : w.queue.closed = false → w.discarded = 0
  leaves : w.queue.closed = true → w.queue.heap.contents = 0
  proper : ∀ e ∈ w.history, e.Proper asked
  waiting : ∀ b k, QueueCall.inLine b k ∈ w.calls → asked k

variable {asked : DeliveryKind → Prop}

/-- Only the history, the pending batches, the closing and the calls that wait enter the
accounts. -/
theorem Balanced.of_same {w v : ScriptedQueue} (h : w.Balanced asked)
    (hh : v.history = w.history) (hq : v.queue.heap = w.queue.heap)
    (hc : v.queue.closed = w.queue.closed)
    (hw : ∀ b k, QueueCall.inLine b k ∈ v.calls → asked k) : v.Balanced asked := by
  have ht (f : QueueEvent → List (Batch Nat)) : v.tally f = w.tally f := by
    unfold tally
    rw [hh]
  refine ⟨?_, ?_, ?_, ?_, hw⟩
  · simp only [accepted, taken, discarded, ht, hq]
    exact h.balance
  · simp only [discarded, ht, hc]
    exact h.keeps
  · rw [hc, hq]
    exact h.leaves
  · rw [hh]
    exact h.proper

/-- One event that leaves the accounts balanced: what comes in with it is what goes out or stays. -/
theorem Balanced.of_event {w v : ScriptedQueue} (h : w.Balanced asked) {e : QueueEvent}
    (hh : v.history = e :: w.history) (hp : e.Proper asked)
    (hq : (e.acceptedBatch : Multiset (Batch Nat)) + w.queue.heap.contents =
      e.takenBatch + v.queue.heap.contents + e.discardedBatches)
    (hk : v.queue.closed = false → w.queue.closed = false ∧ e.discardedBatches = [])
    (hl : v.queue.closed = true → v.queue.heap.contents = 0)
    (hw : ∀ b k, QueueCall.inLine b k ∈ v.calls → asked k) : v.Balanced asked := by
  have ht := tally_of_history hh
  refine ⟨?_, ?_, hl, ?_, hw⟩
  · simp only [accepted, taken, discarded, ht]
    calc (e.acceptedBatch : Multiset (Batch Nat)) + w.tally QueueEvent.acceptedBatch
        = e.acceptedBatch + (w.taken + w.queue.heap.contents + w.discarded) := by
          rw [← h.balance]
          rfl
      _ = (e.acceptedBatch + w.queue.heap.contents) + w.taken + w.discarded := by abel
      _ = (e.takenBatch + v.queue.heap.contents + e.discardedBatches) + w.taken + w.discarded := by
          rw [hq]
      _ = e.takenBatch + w.taken + v.queue.heap.contents + (e.discardedBatches + w.discarded) := by
          abel
  · intro ho
    obtain ⟨hopen, he⟩ := hk ho
    have hd := h.keeps hopen
    simp only [discarded, ht, he] at hd ⊢
    rw [hd]
    rfl
  · rw [hh]
    intro d hd
    rcases List.mem_cons.mp hd with rfl | hd
    · exact hp
    · exact h.proper d hd

theorem Balanced.note {w : ScriptedQueue} (h : w.Balanced asked) {e : QueueEvent}
    (hp : e.Proper asked) (ha : e.acceptedBatch = []) (ht : e.takenBatch = [])
    (hd : e.discardedBatches = []) : (w.note e).Balanced asked := by
  refine h.of_event rfl hp ?_ (fun ho => ⟨ho, hd⟩) h.leaves h.waiting
  rw [ha, ht, hd]
  show 0 + w.queue.heap.contents = 0 + w.queue.heap.contents + 0
  rw [add_zero]

/-- A call that goes on to a point at which it does not wait in line leaves the accounts alone. -/
theorem Balanced.setCall {w : ScriptedQueue} (h : w.Balanced asked) (i : Nat) {c : QueueCall}
    (hc : ∀ b k, c ≠ .inLine b k) : (w.setCall i c).Balanced asked := by
  refine h.of_same rfl rfl rfl ?_
  intro b k hm
  rcases List.mem_or_eq_of_mem_set hm with hm | he
  · exact h.waiting b k hm
  · exact absurd he.symm (hc b k)

/-- So does a call that is made, if it asks for a delivery of a kind that may be asked for. -/
theorem Balanced.addCall {w : ScriptedQueue} (h : w.Balanced asked) {c : QueueCall}
    (hc : ∀ b k, c = .inLine b k → asked k) : (w.addCall c).Balanced asked := by
  refine h.of_same rfl rfl rfl ?_
  intro b k hm
  rcases List.mem_append.mp hm with hm | hm
  · exact h.waiting b k hm
  · exact hc b k (List.mem_singleton.mp hm).symm

theorem balanced_new (n : Nat) (script : List (List HandlerAct)) :
    (new n script).Balanced asked :=
  ⟨rfl, fun _ => rfl, nofun, nofun, nofun⟩

/-! ### The calls -/

/-- A batch enters the accounts with the answer that the queue has taken it, and only then. -/
theorem accepted_enqueue (w : ScriptedQueue) (b : Batch Nat) :
    (w.enqueue b).1.accepted = (if (w.enqueue b).2 then {b} else 0) + w.accepted := by
  cases hc : w.queue.closed with
  | true => simp [enqueue, Queue.enqueue, hc, accepted, tally]
  | false =>
    simp only [enqueue, Queue.enqueue, hc, Bool.false_eq_true, if_false, if_true]
    exact tally_of_history (e := .accepted b) rfl _

theorem balanced_enqueue {w : ScriptedQueue} (h : w.Balanced asked) (b : Batch Nat) :
    (w.enqueue b).1.Balanced asked := by
  cases hc : w.queue.closed with
  | true =>
    have hs : (w.enqueue b).1 = w := by simp [enqueue, Queue.enqueue, hc]
    rw [hs]
    exact h
  | false =>
    simp only [enqueue, Queue.enqueue, hc, Bool.false_eq_true, if_false]
    refine h.of_event (e := .accepted b) rfl trivial ?_ (fun _ => ⟨hc, rfl⟩) ?_ h.waiting
    · show {b} + w.queue.heap.contents = 0 + (w.queue.heap.push b).contents + 0
      rw [Heap.contents_push, Multiset.singleton_add, zero_add, add_zero]
    · intro ho
      exact absurd ho Bool.false_ne_true

theorem balanced_start {w : ScriptedQueue} (h : w.Balanced asked) : w.start.1.Balanced asked := by
  unfold start Queue.start
  by_cases hc : (w.queue.closed || w.queue.started) = true
  · rw [if_pos hc]
    exact h.of_same rfl rfl rfl h.waiting
  · rw [if_neg hc]
    exact h.of_same rfl rfl rfl h.waiting

/-- A close moves what is pending to what is discarded. -/
theorem balanced_close {w : ScriptedQueue} (h : w.Balanced asked) : w.close.Balanced asked := by
  refine h.of_event (e := .discarded w.queue.heap.toList) rfl trivial ?_ nofun (fun _ => rfl)
    h.waiting
  show 0 + w.queue.heap.contents = 0 + 0 + w.queue.heap.contents
  rw [zero_add, zero_add, zero_add]

theorem balanced_deliverNow {w : ScriptedQueue} (h : w.Balanced asked) (b : Batch Nat)
    {kind : DeliveryKind} (hk : asked kind) : (w.deliverNow b kind).Balanced asked := by
  unfold deliverNow Queue.ask
  by_cases hc : w.queue.closed = true
  · rw [if_pos hc]
    exact h.addCall nofun
  · rw [if_neg hc]
    have hj : Balanced asked { w with
        queue := { w.queue with gate := w.queue.gate.join (.call w.calls.length) } } :=
      h.of_same rfl rfl rfl h.waiting
    apply hj.addCall
    intro b' k' he
    cases he
    exact hk

theorem balanced_join {w : ScriptedQueue} (h : w.Balanced asked) :
    Balanced asked { w with queue := w.queue.join.1 } :=
  h.of_same rfl rfl rfl h.waiting

theorem balanced_shutdown {w : ScriptedQueue} (h : w.Balanced asked) :
    w.shutdown.Balanced asked := by
  have hc := balanced_close h
  have hs : w.shutdown = { w.close with queue := w.close.queue.join.1 }.addCall .joining ∨
      w.shutdown = w.close.addCall (.returned none) := by
    cases hu : w.close.queue.unjoined with
    | true => exact .inl (by simp only [shutdown, Queue.join, hu])
    | false => exact .inr (by simp only [shutdown, Queue.join, hu])
  rcases hs with hs | hs
  · rw [hs]
    exact (balanced_join hc).addCall nofun
  · rw [hs]
    exact hc.addCall nofun

/-- A release changes only deliveries under way, none of which waits in line. -/
theorem mem_of_releaseCalls {acts : List HandlerAct} {calls calls' : List QueueCall}
    (hr : releaseCalls acts calls = some calls') {b : Batch Nat} {k : DeliveryKind}
    (hm : QueueCall.inLine b k ∈ calls') : QueueCall.inLine b k ∈ calls := by
  induction calls generalizing calls' with
  | nil => cases hr
  | cons c rest ih =>
    have hskip : (releaseCalls acts rest).map (c :: ·) = some calls' →
        QueueCall.inLine b k ∈ c :: rest := by
      intro hr
      obtain ⟨rest', hrest, rfl⟩ := Option.map_eq_some_iff.mp hr
      rcases List.mem_cons.mp hm with rfl | hm
      · exact List.mem_cons_self
      · exact List.mem_cons_of_mem _ (ih hrest hm)
    cases c with
    | delivering run =>
      simp only [releaseCalls] at hr
      split at hr
      · obtain rfl := Option.some.inj hr
        rcases List.mem_cons.mp hm with he | hm
        · cases he
        · exact List.mem_cons_of_mem _ hm
      · exact hskip hr
    | inLine _ _ => exact hskip hr
    | joining => exact hskip hr
    | returned _ => exact hskip hr
    | crashed => exact hskip hr

theorem balanced_release {w : ScriptedQueue} (h : w.Balanced asked) (acts : List HandlerAct) :
    (w.release acts).1.Balanced asked := by
  unfold release
  dsimp only
  split
  · exact h.of_same rfl rfl rfl h.waiting
  · split
    · rename_i calls hr
      exact h.of_same rfl rfl rfl (fun b k hm => h.waiting b k (mem_of_releaseCalls hr hm))
    · exact h

/-! ### The handler -/

/-- Nothing that a handler does by itself or on its own queue upsets the accounts. -/
theorem balanced_handlerAct {w : ScriptedQueue} (h : w.Balanced asked) (p : Party)
    (run : HandlerRun) (act : HandlerAct) (rest : List HandlerAct) :
    (w.handlerAct p run act rest).1.Balanced asked := by
  unfold handlerAct
  cases act with
  | sleep ms => exact h
  | hold => exact h
  | crash => exact h
  | enqueue b =>
    dsimp only
    split
    · exact h
    · exact balanced_enqueue h b
  | start =>
    dsimp only
    split
    · exact h
    · exact balanced_start h
  | close =>
    dsimp only
    split
    · exact h
    · exact balanced_close h
  | shutdown =>
    have hj := balanced_join (balanced_close h)
    dsimp only
    split
    · exact h
    · split
      · exact hj
      · exact hj
  | deliver b kind =>
    dsimp only
    split
    · exact h
    · split <;> exact h

theorem balanced_learnEnd {w : ScriptedQueue} (h : w.Balanced asked) :
    w.learnEnd.Balanced asked := by
  unfold learnEnd
  split
  · exact h.note trivial rfl rfl rfl
  · exact h

theorem balanced_handlerStep {w : ScriptedQueue} (h : w.Balanced asked) (p : Party)
    (run : HandlerRun) : (w.handlerStep p run).1.Balanced asked := by
  unfold handlerStep
  cases run.acts with
  | nil =>
    cases run.wait with
    | workerEnd => exact balanced_learnEnd h
    | nothing | moment | release | itself => exact h
  | cons act rest =>
    cases run.wait with
    | workerEnd => exact balanced_handlerAct (balanced_learnEnd h) p run act rest
    | nothing | moment | release | itself => exact balanced_handlerAct h p run act rest

/-! ### The worker and the direct deliveries -/

theorem balanced_workerTurn {w : ScriptedQueue} (h : w.Balanced asked) :
    w.workerTurn.Balanced asked := by
  unfold workerTurn Queue.workerTurn Queue.ask
  by_cases hc : w.queue.closed = true
  · rw [if_pos hc]
    have hs : Balanced asked { w with worker := .stopped } := h.of_same rfl rfl rfl h.waiting
    exact hs.note trivial rfl rfl rfl
  · rw [if_neg hc]
    exact h.of_same rfl rfl rfl h.waiting

/-- The worker takes a batch only while the queue is open: a closed one holds none. -/
theorem Balanced.open_of_pop? {w : ScriptedQueue} (h : w.Balanced asked) {b : Batch Nat}
    {rest : Heap Nat} (hp : w.queue.heap.pop? = some (b, rest)) : w.queue.closed = false := by
  by_contra hc
  have hnone := (Heap.pop?_eq_none_iff _).mpr (h.leaves (Bool.eq_true_of_not_eq_false hc))
  rw [hp] at hnone
  cases hnone

/-- What the worker finds when it holds the gate: a batch moves from the pending ones to the
handler, or nothing is pending and it goes to sleep. -/
theorem balanced_inLine {w : ScriptedQueue} (h : w.Balanced asked) (hw : w.worker = .inLine) :
    w.workerStep.Balanced asked := by
  unfold workerStep Queue.takeNext
  rw [hw]
  cases hp : w.queue.heap.pop? with
  | none => exact h.of_same rfl rfl rfl h.waiting
  | some popped =>
    obtain ⟨b, rest⟩ := popped
    have hopen := h.open_of_pop? hp
    simp only [hopen, Bool.false_eq_true, if_false]
    refine h.of_event (e := .handling .worker b .live) rfl rfl ?_ (fun _ => ⟨hopen, rfl⟩) ?_
      h.waiting
    · show 0 + w.queue.heap.contents = {b} + rest.contents + 0
      rw [Heap.contents_of_pop? hp, zero_add, add_zero, Multiset.singleton_add]
    · intro hclosed
      exact absurd hclosed Bool.false_ne_true

theorem balanced_workerStep {w : ScriptedQueue} (h : w.Balanced asked) :
    w.workerStep.Balanced asked := by
  cases hw : w.worker with
  | inLine => exact balanced_inLine h hw
  | fresh =>
    simp only [workerStep, hw]
    exact balanced_workerTurn (h.note trivial rfl rfl rfl)
  | delivering run =>
    have hs := balanced_handlerStep h .worker run
    simp only [workerStep, hw]
    split
    · rename_i w' run' heq
      rw [heq] at hs
      exact hs.of_same rfl rfl rfl hs.waiting
    · rename_i w' note heq
      rw [heq] at hs
      have hl : Balanced asked { w' with queue := w'.queue.leave .worker } :=
        hs.of_same rfl rfl rfl hs.waiting
      exact balanced_workerTurn (hl.note trivial rfl rfl rfl)
    · rename_i w' heq
      rw [heq] at hs
      have hl : Balanced asked
          { w' with queue := w'.queue.leave .worker, worker := .crashed } :=
        hs.of_same rfl rfl rfl hs.waiting
      exact hl.note trivial rfl rfl rfl
  | asleep =>
    simp only [workerStep, hw]
    split
    · have hs : Balanced asked { w with worker := .stopped } := h.of_same rfl rfl rfl h.waiting
      exact hs.note trivial rfl rfl rfl
    · refine balanced_workerTurn (w := { w with
        queue := { w.queue with signal := w.queue.signal.resume } }) ?_
      exact h.of_same rfl rfl rfl h.waiting
  | absent =>
    simp only [workerStep, hw]
    exact h
  | stopped =>
    simp only [workerStep, hw]
    exact h
  | crashed =>
    simp only [workerStep, hw]
    exact h

/-- A direct delivery hands over its own batch, never one that the queue has accepted. -/
theorem balanced_callStep {w : ScriptedQueue} (h : w.Balanced asked) (i : Nat) :
    (w.callStep i).Balanced asked := by
  have hleave {v : ScriptedQueue} (hv : v.Balanced asked) :
      Balanced asked { v with queue := v.queue.leave (.call i) } :=
    hv.of_same rfl rfl rfl hv.waiting
  unfold callStep
  dsimp only
  split
  · rename_i b kind hcall
    split
    · exact (hleave h).setCall i nofun
    · refine Balanced.setCall ?_ i nofun
      refine h.of_event (e := .handling (.call i) b kind) rfl
        (h.waiting b kind (List.mem_of_getElem? hcall)) ?_ (fun ho => ⟨ho, rfl⟩) h.leaves h.waiting
      show 0 + w.queue.heap.contents = 0 + w.queue.heap.contents + 0
      rw [add_zero]
  · rename_i run hcall
    have hs := balanced_handlerStep h (.call i) run
    split
    · rename_i w' run' heq
      rw [heq] at hs
      exact hs.setCall i nofun
    · rename_i w' note heq
      rw [heq] at hs
      refine Balanced.note ?_ trivial rfl rfl rfl
      exact (hleave hs).setCall i nofun
    · rename_i w' heq
      rw [heq] at hs
      refine Balanced.note ?_ trivial rfl rfl rfl
      exact (hleave hs).setCall i nofun
  · exact (balanced_learnEnd h).setCall i nofun
  · exact h

/-! ### Every run -/

/-- No action upsets the accounts, if a direct delivery is asked for only with a kind that may be
asked for. -/
theorem balanced_apply {w : ScriptedQueue} (h : w.Balanced asked) {a : QueueAction}
    (ha : ∀ b k, a = .deliverNow b k → asked k) : (w.apply a).Balanced asked := by
  cases a with
  | run p =>
    simp only [apply]
    split
    · cases p with
      | worker => exact balanced_workerStep h
      | call i => exact balanced_callStep h i
    · exact h
  | elapse ms => exact h.of_same rfl rfl rfl h.waiting
  | enqueue b => exact balanced_enqueue h b
  | start => exact balanced_start h
  | deliverNow b kind => exact balanced_deliverNow h b (ha b kind rfl)
  | close => exact balanced_close h
  | shutdown => exact balanced_shutdown h
  | release acts => exact balanced_release h acts

theorem balanced_run (n : Nat) (script : List (List HandlerAct)) {actions : List QueueAction}
    (ha : ∀ b k, .deliverNow b k ∈ actions → asked k) :
    ((new n script).run actions).Balanced asked := by
  refine run_induction (I := Balanced asked) ?_ (balanced_new n script)
  intro w a hmem h
  apply balanced_apply h
  rintro b k rfl
  exact ha b k hmem

/-- What is handed over as live comes from the worker or from a direct delivery of that kind. -/
theorem Balanced.handed_live {w : ScriptedQueue} (h : w.Balanced asked) :
    w.handed .live = w.taken + w.direct .live := by
  have hall : ∀ history : List QueueEvent, (∀ e ∈ history, e.Proper asked) →
      (history.flatMap (QueueEvent.handedBatch .live) : Multiset (Batch Nat)) =
        history.flatMap QueueEvent.takenBatch +
          history.flatMap (QueueEvent.directBatch .live) := by
    intro history hp
    induction history with
    | nil => rfl
    | cons e rest ih =>
      have hrest := ih fun d hd => hp d (List.mem_cons_of_mem e hd)
      have he : (e.handedBatch .live : Multiset (Batch Nat)) =
          e.takenBatch + e.directBatch .live := by
        have := hp e List.mem_cons_self
        cases e with
        | handling who b k =>
          cases who with
          | worker =>
            obtain rfl : k = .live := this
            rfl
          | call i => rfl
        | _ => rfl
      simp only [List.flatMap_cons, ← Multiset.coe_add, he, hrest]
      abel
  exact hall w.history h.proper

/-- Where no direct delivery is asked for as live, none is made as live. -/
theorem Balanced.direct_live {w : ScriptedQueue} (h : w.Balanced (· ≠ .live)) :
    w.direct .live = 0 := by
  have hnil : w.history.flatMap (QueueEvent.directBatch .live) = [] := by
    apply List.flatMap_eq_nil_iff.mpr
    intro e he
    have := h.proper e he
    cases e with
    | handling who b k =>
      cases who with
      | worker => rfl
      | call i => exact if_neg this
    | _ => rfl
  exact congrArg _ hnil

/-- Nothing is lost and nothing is handed over twice. In every run the batches that the queue has
accepted are those that the worker has handed to the handler, those that are pending and those that
a close has discarded, each one counted once; and before the first close nothing is discarded. The
live batches that reach the handler are those of the worker, unless a direct delivery is asked for
as a live one. -/
theorem accepted_eq_taken_add_pending_add_discarded (n : Nat) (script : List (List HandlerAct))
    (actions : List QueueAction) :
    let w := (new n script).run actions
    w.accepted = w.taken + w.queue.heap.contents + w.discarded ∧
      (w.queue.closed = false → w.discarded = 0) ∧
      w.taken ≤ w.accepted ∧
      w.handed .live = w.taken + w.direct .live ∧
      ((∀ b, .deliverNow b .live ∉ actions) → w.handed .live = w.taken) ∧
      ∀ b, (w.enqueue b).1.accepted = (if (w.enqueue b).2 then {b} else 0) + w.accepted := by
  intro w
  have hw : w.Balanced fun _ => True := balanced_run n script fun _ _ _ => trivial
  refine ⟨hw.balance, hw.keeps, ?_, hw.handed_live, ?_, accepted_enqueue w⟩
  · rw [hw.balance, add_assoc]
    exact Multiset.le_add_right _ _
  · intro hnone
    have hl : w.Balanced (· ≠ .live) := by
      apply balanced_run n script
      rintro b k hmem rfl
      exact hnone b hmem
    rw [hw.handed_live, hl.direct_live, add_zero]

/-- A direct delivery may be asked for as a live one. Its batch then reaches the handler as live
although the queue has never accepted it. -/
theorem direct_live_is_not_accepted :
    let w := (new 1 []).run [.deliverNow ⟨[⟨1, ""⟩]⟩ .live, .run (.call 0)]
    w.accepted ≠ w.handed .live + w.queue.heap.contents + w.discarded := by
  decide +kernel

end ScriptedQueue

end Multicast
