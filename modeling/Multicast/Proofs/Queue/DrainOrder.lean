import Multicast.Proofs.Heap.LeastFirst
import Multicast.Proofs.Queue.Conservation
import Multicast.Proofs.Queue.SingleWriter

/-! The order in which a queue is drained. The worker takes a batch that comes after none of those
that are pending, and it takes it only when it holds the gate; so what comes before a batch that it
has taken, and is handled later, was accepted later. -/

namespace Multicast

namespace Scene

variable {a b : Scene} {asked : Batch Nat → DeliveryKind → Prop} {takes : Prop}

/-- The worker has drained the heap in order. Since it took a batch, it has taken no more of those
that come before this one than were accepted since, now (`fresh`) and at any moment of the past. -/
structure Drained (a : Scene) : Prop where
  ordered : a.queue.heap.Ordered
  fresh : ∀ since batch kind earlier, a.history = since ++ .handling .worker batch kind :: earlier →
    ∀ c : Batch Nat, c.before batch = true →
      (since.flatMap QueueEvent.takenBatch).count c + a.queue.heap.contents.count c ≤
        (since.flatMap QueueEvent.acceptedBatch).count c
  past : ∀ later since batch kind earlier,
    a.history = later ++ since ++ .handling .worker batch kind :: earlier →
    ∀ c : Batch Nat, c.before batch = true →
      (since.flatMap QueueEvent.takenBatch).count c ≤
        (since.flatMap QueueEvent.acceptedBatch).count c

theorem Drained.of_same (h : a.Drained) (hh : b.history = a.history)
    (hq : b.queue.heap = a.queue.heap) : b.Drained := by
  refine ⟨?_, ?_, ?_⟩
  · rw [hq]
    exact h.ordered
  · rw [hh, hq]
    exact h.fresh
  · rw [hh]
    exact h.past

/-- An event keeps the order if nothing comes into the heap without having been accepted, and
nothing that is left there comes before what is taken. -/
theorem Drained.of_event (h : a.Drained) {e : QueueEvent} (hh : b.history = e :: a.history)
    (ho : b.queue.heap.Ordered)
    (hin : ↑e.takenBatch + b.queue.heap.contents ≤ a.queue.heap.contents + ↑e.acceptedBatch)
    (hleast : ∀ batch kind, e = .handling .worker batch kind →
      ∀ c ∈ b.queue.heap.contents, c.before batch = false) : b.Drained := by
  have hfresh : ∀ since batch kind earlier,
      b.history = since ++ .handling .worker batch kind :: earlier →
      ∀ c : Batch Nat, c.before batch = true →
        (since.flatMap QueueEvent.takenBatch).count c + b.queue.heap.contents.count c ≤
          (since.flatMap QueueEvent.acceptedBatch).count c := by
    intro since batch kind earlier hsplit c hc
    rw [hh] at hsplit
    cases since with
    | nil =>
      -- the batch has just been taken, so that nothing pending comes before it
      obtain ⟨he, -⟩ := List.cons.inj hsplit
      have hnone : b.queue.heap.contents.count c = 0 := by
        rw [Multiset.count_eq_zero]
        intro hmem
        rw [hleast batch kind he c hmem] at hc
        cases hc
      rw [hnone]
      exact Nat.le_refl _
    | cons e' since =>
      obtain ⟨rfl, hsince⟩ := List.cons.inj hsplit
      have hold := h.fresh since batch kind earlier hsince c hc
      have hnew := Multiset.count_le_of_le c hin
      simp only [Multiset.count_add, Multiset.coe_count] at hnew
      simp only [List.flatMap_cons, List.count_append]
      omega
  refine ⟨ho, hfresh, ?_⟩
  intro later since batch kind earlier hsplit c hc
  cases later with
  | nil => exact (Nat.le_add_right _ _).trans (hfresh since batch kind earlier hsplit c hc)
  | cons e' later =>
    rw [hh] at hsplit
    exact h.past later since batch kind earlier (List.cons.inj hsplit).2 c hc

/-- What is not taken leaves the order alone if nothing comes into the heap. -/
theorem Drained.tell (h : a.Drained) {e : QueueEvent} (hh : b.history = e :: a.history)
    (hq : b.queue.heap = a.queue.heap) (he : e.takenBatch = []) : b.Drained := by
  refine h.of_event hh (hq ▸ h.ordered) ?_ ?_
  · rw [hq, he, Multiset.coe_nil, zero_add]
    exact Multiset.le_add_right _ _
  · rintro batch kind rfl
    cases he

theorem not_before_of_rank_le {c d : Batch Nat} (h : d.rank ≤ c.rank) : c.before d = false := by
  rw [← Bool.not_eq_true, Batch.before_iff]
  exact not_lt.mpr h

/-- The batch that is taken comes after none of those that were pending. -/
theorem Drained.least (h : a.Drained) {batch : Batch Nat} {rest : Heap Nat}
    (hp : a.queue.heap.pop? = some (batch, rest)) :
    ∀ c ∈ a.queue.heap.contents, c.before batch = false := by
  have hne : a.queue.heap.contents ≠ 0 := by
    intro hzero
    rw [(Heap.pop?_eq_none_iff _).mpr hzero] at hp
    cases hp
  obtain ⟨batch', rest', hp', -, -, -, hleast⟩ := h.ordered.exists_pop? hne
  obtain ⟨rfl, rfl⟩ := Prod.mk.inj (Option.some.inj (hp.symm.trans hp'))
  intro c hc
  exact not_before_of_rank_le (hleast c hc)

theorem Drained.turn (h : a.Drained) (t : Turn asked takes a b) : b.Drained := by
  cases t with
  | tell e he =>
    refine h.tell rfl rfl ?_
    cases e <;> first | rfl | exact he.elim
  | join | wake | standInLine | findNothing | sleep | handBack | ask | depart =>
    exact h.of_same rfl rfl
  | appear | stop | serve => exact h.tell rfl rfl rfl
  | @start q =>
    have hq : q.start.1.heap = q.heap := by
      unfold Queue.start
      split <;> rfl
    exact h.of_same rfl hq
  | @accept q _ _ batch hc =>
    have hq : (q.enqueue batch).1.heap = q.heap.push batch := by
      simp only [Queue.enqueue, hc, Bool.false_eq_true, if_false]
    refine h.of_event rfl (hq ▸ h.ordered.push batch) ?_ ?_
    · show 0 + (q.enqueue batch).1.heap.contents ≤ q.heap.contents + {batch}
      rw [hq, Heap.contents_push, zero_add, add_comm, Multiset.singleton_add]
    · intro _ _ htaken
      cases htaken
  | close =>
    refine h.of_event rfl (Heap.ordered_withCapacity 0) (Multiset.zero_le _) ?_
    intro _ _ htaken
    cases htaken
  | @take q _ _ batch rest hp hg hb =>
    have hcontents := Heap.contents_of_pop? hb
    refine h.of_event rfl (h.ordered.pop? hb) ?_ ?_
    · show {batch} + rest.contents ≤ q.heap.contents + 0
      rw [hcontents, Multiset.singleton_add, add_zero]
    · rintro batch' kind ⟨⟩ c hc
      apply h.least hb
      rw [hcontents]
      exact Multiset.mem_cons_of_mem hc

/-- A worker that may not take anything does not. -/
theorem Turns.taken_eq (t : Turns asked False a b) :
    b.history.flatMap QueueEvent.takenBatch = a.history.flatMap QueueEvent.takenBatch := by
  induction t with
  | refl => rfl
  | tail _ t ih =>
    rw [← ih]
    cases t with
    | tell e he => cases e <;> first | rfl | exact he.elim
    | take _ _ _ _ _ _ ht => exact ht.elim
    | _ => rfl

end Scene

namespace ScriptedQueue

variable {w : ScriptedQueue}

theorem drained_run (n : Nat) (script : List (List HandlerAct)) (actions : List QueueAction) :
    ((new n script).run actions).scene.Drained := by
  refine (run_scene_induction n script actions ?_ fun a b _ h t => h.turn t).2
  refine ⟨Heap.ordered_withCapacity n, ?_, ?_⟩
  · intro since batch kind earlier hsplit
    simp [scene, new] at hsplit
  · intro later since batch kind earlier hsplit
    simp [scene, new] at hsplit

/-- Only a worker in line that runs takes a batch. -/
theorem inLine_of_taken (hl : w.scene.Lawful) {action : QueueAction} {es : List QueueEvent}
    (hh : (w.apply action).history = es ++ w.history) {b : Batch Nat} {k : DeliveryKind}
    (hmem : .handling .worker b k ∈ es) : action = .run .worker ∧ w.worker = .inLine := by
  by_contra hnot
  have hturns : Scene.Turns (fun _ _ => True) False w.scene (w.apply action).scene :=
    turns_apply hl (fun _ _ _ => trivial) fun ha hw => hnot ⟨ha, hw⟩
  have htaken := hturns.taken_eq
  simp only [scene, hh, List.flatMap_append, List.append_left_eq_self] at htaken
  have hnone := List.flatMap_eq_nil_iff.mp htaken _ hmem
  cases hnone

/-- What a worker in line does when something is pending. -/
theorem workerStep_take (hw : w.worker = .inLine) (hopen : w.queue.closed = false) {b : Batch Nat}
    {rest : Heap Nat} (hp : w.queue.heap.pop? = some (b, rest)) :
    w.workerStep.history = .handling .worker b .live :: w.history ∧
      w.workerStep.queue = { w.queue with heap := rest } := by
  have hnext : w.queue.takeNext = ({ w.queue with heap := rest }, some b) := by
    simp only [Queue.takeNext, hp, hopen, Bool.false_eq_true, if_false]
  simp [workerStep, hw, hnext, beginHandling, note]

/-- When the worker begins to handle a batch, it holds the gate, and has just taken this batch from
among those that were pending, none of which comes before it. -/
theorem least_of_taken (hl : w.scene.Lawful) (hd : w.scene.Drained) {action : QueueAction}
    {es : List QueueEvent} {b : Batch Nat} {k : DeliveryKind}
    (hh : (w.apply action).history = es ++ w.history) (hmem : .handling .worker b k ∈ es) :
    w.queue.gate.holds .worker = true ∧
      w.queue.heap.contents = b ::ₘ (w.apply action).queue.heap.contents ∧
      ∀ c ∈ w.queue.heap.contents, c.before b = false := by
  obtain ⟨rfl, hw⟩ := inLine_of_taken hl hh hmem
  -- an action that tells of nothing takes nothing
  have hquiet {v : ScriptedQueue} (hv : v.history = w.history) : v.history ≠ es ++ w.history := by
    rw [hv]
    intro hsame
    rw [List.append_left_eq_self.mp hsame.symm] at hmem
    cases hmem
  have hready : w.ready .worker = w.queue.gate.holds .worker := by
    simp only [ready, Queue.workerReady, hw]
  cases hg : w.queue.gate.holds .worker with
  | false =>
    have hstays : w.apply (.run .worker) = w := by
      simp only [apply, hready, hg, Bool.false_eq_true, if_false]
    exact absurd hh (hquiet (by rw [hstays]))
  | true =>
    have hgoes : w.apply (.run .worker) = w.workerStep := by
      simp only [apply, hready, hg, if_true, step]
    rw [hgoes] at hh ⊢
    cases hp : w.queue.heap.pop? with
    | none => exact absurd hh (hquiet (by simp [workerStep, hw, Queue.takeNext, hp]))
    | some popped =>
      obtain ⟨b', rest⟩ := popped
      obtain ⟨htold, hqueue⟩ := workerStep_take hw (hl.open_of_pop? hp) hp
      have hes : es = [.handling .worker b' .live] := by
        rw [htold, ← List.singleton_append] at hh
        exact (List.append_cancel_right hh).symm
      rw [hes, List.mem_singleton] at hmem
      obtain ⟨-, rfl, -⟩ := QueueEvent.handling.inj hmem
      refine ⟨rfl, ?_, hd.least hp⟩
      rw [hqueue]
      exact Heap.contents_of_pop? hp

/-- The queue is drained in order. In every run, when the worker begins to handle a batch, it holds
the gate, and this batch is one of those that were pending, none of which comes before it. Since the
worker has taken a batch, it has therefore taken none that comes before this one but those that were
accepted since; so that of two live batches that reach the handler in the other order, the later one
was accepted after the earlier one had been taken. This last is said of two batches of the worker,
and of any two where no direct delivery was asked for as a live one. -/
theorem drained_in_order (n : Nat) (script : List (List HandlerAct)) (actions : List QueueAction) :
    let w := (new n script).run actions
    (∀ action es b k, (w.apply action).history = es ++ w.history → .handling .worker b k ∈ es →
        w.queue.gate.holds .worker = true ∧
          w.queue.heap.contents = b ::ₘ (w.apply action).queue.heap.contents ∧
          ∀ c ∈ w.queue.heap.contents, c.before b = false) ∧
      (∀ later since b k earlier,
        w.history = later ++ since ++ .handling .worker b k :: earlier →
        ∀ c : Batch Nat, c.before b = true →
          (since.flatMap QueueEvent.takenBatch).count c ≤
            (since.flatMap QueueEvent.acceptedBatch).count c) ∧
      ∀ p q b c later mid earlier,
        w.history = later ++ .handling q c .live :: mid ++ .handling p b .live :: earlier →
        c.before b = true →
        (p = .worker ∧ q = .worker) ∨ (∀ d, .deliverNow d .live ∉ actions) →
        .accepted c ∈ mid := by
  intro w
  have hl : w.scene.Lawful := (orderly_run n script actions).1
  have hd : w.scene.Drained := drained_run n script actions
  have ha : w.scene.Authorized fun b k => .deliverNow b k ∈ actions :=
    authorized_run n script actions
  refine ⟨fun action es b k => least_of_taken hl hd, hd.past, ?_⟩
  intro p q b c later mid earlier hsplit hcb hwho
  have hworkers : p = .worker ∧ q = .worker := by
    rcases hwho with hwho | hnone
    · exact hwho
    · have hp : .handling p b .live ∈ w.history := by simp [hsplit]
      have hq : .handling q c .live ∈ w.history := by simp [hsplit]
      exact ⟨(ha.live p b hp).resolve_right (hnone b), (ha.live q c hq).resolve_right (hnone c)⟩
  obtain ⟨rfl, rfl⟩ := hworkers
  have hcount := hd.past later (.handling .worker c .live :: mid) b .live earlier
    hsplit c hcb
  have hone : 0 < (mid.flatMap QueueEvent.acceptedBatch).count c := by
    have htaken : ((QueueEvent.handling .worker c .live :: mid).flatMap
        QueueEvent.takenBatch).count c = (mid.flatMap QueueEvent.takenBatch).count c + 1 := by
      simp [QueueEvent.takenBatch]
    have hsame : (QueueEvent.handling .worker c .live :: mid).flatMap QueueEvent.acceptedBatch =
        mid.flatMap QueueEvent.acceptedBatch := rfl
    rw [htaken, hsame] at hcount
    omega
  obtain ⟨e, he, hc⟩ := List.mem_flatMap.mp (List.count_pos_iff.mp hone)
  cases e with
  | accepted c' =>
    obtain rfl : c = c' := List.mem_singleton.mp hc
    exact he
  | _ => cases hc

/-- A direct delivery that was asked for as a live one goes before what is pending, whatever comes
first; the pending batch reaches the handler later, and was accepted before. -/
theorem direct_live_overtakes :
    let w := (new 8 []).run [.enqueue ⟨[⟨3, ""⟩]⟩, .deliverNow ⟨[⟨5, ""⟩]⟩ .live, .run (.call 0),
      .run (.call 0), .start, .run .worker, .run .worker]
    ∃ p q b c later mid earlier,
      w.history = later ++ .handling q c .live :: mid ++ .handling p b .live :: earlier ∧
        c.before b = true ∧ .accepted c ∉ mid := by
  intro w
  refine ⟨.call 0, .worker, ⟨[⟨5, ""⟩]⟩, ⟨[⟨3, ""⟩]⟩, [],
    [.workerStarted, .handled (.call 0) ⟨[⟨5, ""⟩]⟩ none], [.accepted ⟨[⟨3, ""⟩]⟩], ?_, ?_, ?_⟩
  · decide +kernel
  · decide
  · decide

end ScriptedQueue

end Multicast
