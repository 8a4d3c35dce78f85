import Multicast.Proofs.Heap.Contents
import Multicast.Proofs.Registry.Lane

/-! The life of one subscriber: its stage, the notice of its removal, its queue and its worker never
disagree, whatever turn its lane takes. -/

namespace Multicast

namespace Stage

/-- Whether a subscriber at one stage may come to another: it is activated at most once, and removed
at most once and for all. -/
def Leads (a b : Stage) : Prop :=
  a = b ∨ (a = .registered ∧ b = .active) ∨ (a ≠ .removed ∧ b = .removed)

theorem Leads.refl (a : Stage) : a.Leads a := .inl rfl

theorem Leads.trans {a b c : Stage} (h : a.Leads b) (h' : b.Leads c) : a.Leads c := by
  rcases h with rfl | ⟨rfl, rfl⟩ | ⟨ha, rfl⟩
  · exact h'
  · rcases h' with rfl | ⟨hb, _⟩ | ⟨_, rfl⟩
    · exact .inr (.inl ⟨rfl, rfl⟩)
    · cases hb
    · exact .inr (.inr ⟨nofun, rfl⟩)
  · rcases h' with rfl | ⟨hb, _⟩ | ⟨hb, _⟩
    · exact .inr (.inr ⟨ha, rfl⟩)
    · cases hb
    · exact absurd rfl hb

theorem Leads.removed {a b : Stage} (h : a.Leads b) (ha : a = .removed) : b = .removed := by
  rcases h with rfl | ⟨rfl, _⟩ | ⟨hn, _⟩
  · exact ha
  · cases ha
  · exact absurd ha hn

end Stage

theorem Queue.card_contents (q : Queue Nat) : q.heap.contents.card = q.size :=
  Heap.card_contents q.heap

theorem Queue.size_of_empty {q : Queue Nat} (h : q.heap.contents = 0) : q.size = 0 := by
  rw [← q.card_contents, h, Multiset.card_zero]

theorem Session.enqueue_of_open {x : Session} (b : Batch Nat) (hc : x.queue.closed = false) :
    x.enqueue b = ({ x with
      queue := { x.queue with heap := x.queue.heap.push b, signal := x.queue.signal.notify } },
      true) := by
  simp only [Session.enqueue, Queue.enqueue, hc, Bool.false_eq_true, if_false]

/-- Activation touches the stage, the start of the queue and the worker, and nothing else. -/
theorem Session.exists_activate_eq (x : Session) :
    ∃ stage started unjoined worker, x.activate.1 = { x with
      stage := stage
      queue := { x.queue with started := started, unjoined := unjoined }
      worker := worker } := by
  unfold Session.activate Queue.start
  cases x.stage with
  | active => exact ⟨x.stage, x.queue.started, x.queue.unjoined, x.worker, rfl⟩
  | removed => exact ⟨x.stage, x.queue.started, x.queue.unjoined, x.worker, rfl⟩
  | registered =>
    cases (x.queue.closed || x.queue.started) with
    | true => exact ⟨.active, x.queue.started, x.queue.unjoined, x.worker, rfl⟩
    | false => exact ⟨.active, true, true, .fresh, rfl⟩

/-- A subscriber that is registered is started, if its queue has no worker and is open. -/
theorem Session.activate_of_registered {x : Session} (hs : x.stage = .registered)
    (hi : x.queue.started = false) (hc : x.queue.closed = false) :
    x.activate = ({ x with
      stage := .active
      queue := { x.queue with started := true, unjoined := true }
      worker := .fresh }, true) := by
  simp only [activate, hs, Queue.start, hi, hc, Bool.or_self, Bool.false_eq_true, if_false]

namespace Lane

/-- The parts of a subscriber that tell of its life agree, and only published batches are pending. -/
structure Lawful (T : Terms) (l : Lane) : Prop where
  completed : l.session.completed = true ↔ l.session.stage = .removed
  closed : l.session.queue.closed = true ↔ l.session.stage = .removed
  idle : l.session.stage = .registered → l.session.queue.started = false
  running : l.session.stage = .active → l.session.queue.started = true
  worker : l.session.queue.started = true ↔ l.session.worker ≠ .absent
  emptied : l.session.queue.closed = true → l.session.queue.heap.contents = 0
  stocked : ∀ b ∈ l.session.queue.heap.contents, T.admits b

variable {T : Terms} {l l' : Lane}

theorem lawful_fresh (request : Subscription) (room : Nat) : (fresh request room).Lawful T := by
  refine ⟨?_, ?_, ?_, ?_, ?_, nofun, ?_⟩
  · simp [fresh, Session.ofSubscription]
  · simp [fresh, Session.ofSubscription, Queue.ofCapacity]
  · intro _
    rfl
  · intro ha
    cases ha
  · simp [fresh, Session.ofSubscription, Queue.ofCapacity]
  · intro b hb
    simp [fresh, Session.ofSubscription, Queue.ofCapacity] at hb

theorem Lawful.open_iff (h : l.Lawful T) :
    l.session.queue.closed = false ↔ l.session.stage ≠ .removed := by
  rw [← Bool.not_eq_true, not_iff_not]
  exact h.closed

/-- The worker is started with the stage, since a subscriber that is registered has an open queue
without one. -/
theorem Lawful.activate {x : Session} {P : Party → Post} {log : List WriteMark}
    (h : Lawful T ⟨x, P, log⟩) : Lawful T ⟨x.activate.1, P, log⟩ := by
  cases hs : x.stage with
  | active => simpa only [Session.activate, hs] using h
  | removed => simpa only [Session.activate, hs] using h
  | registered =>
    -- a subscriber that is registered has an open queue without a worker, so the start succeeds
    have hidle : x.queue.started = false := h.idle hs
    have hstage : x.stage ≠ .removed := by
      rw [hs]
      exact nofun
    have hopen : x.queue.closed = false := h.open_iff.mpr hstage
    have hcomp : x.completed = false := Bool.eq_false_iff.mpr (mt h.completed.mp hstage)
    rw [Session.activate_of_registered hs hidle hopen]
    refine ⟨?_, ?_, nofun, fun _ => rfl, ?_, h.emptied, h.stocked⟩
    · simp [hcomp]
    · simp [hopen]
    · simp

theorem Lawful.enqueue {x : Session} {P : Party → Post} {log : List WriteMark}
    (h : Lawful T ⟨x, P, log⟩) {b : Batch Nat} (hb : T.admits b) (hc : x.queue.closed = false) :
    Lawful T ⟨(x.enqueue b).1, P, log⟩ := by
  rw [Session.enqueue_of_open b hc]
  refine ⟨h.completed, h.closed, h.idle, h.running, h.worker, ?_, ?_⟩
  · intro hclosed
    rw [show x.queue.closed = true from hclosed] at hc
    cases hc
  · intro b' hmem
    change b' ∈ (x.queue.heap.push b).contents at hmem
    rw [Heap.contents_push] at hmem
    rcases Multiset.mem_cons.mp hmem with rfl | hmem
    · exact hb
    · exact h.stocked b' hmem

/-- What is left after a batch was taken was pending before. -/
theorem Lawful.take {x : Session} {P : Party → Post} {log : List WriteMark}
    (h : Lawful T ⟨x, P, log⟩) {b : Batch Nat} {rest : Heap Nat}
    (hb : x.queue.heap.pop? = some (b, rest)) :
    Lawful T ⟨{ x with queue := { x.queue with heap := rest } }, P, log⟩ := by
  have hcons := Heap.contents_of_pop? hb
  refine ⟨h.completed, h.closed, h.idle, h.running, h.worker, ?_, ?_⟩
  · intro hclosed
    have hempty : x.queue.heap.contents = 0 := h.emptied hclosed
    -- a closed queue is empty, and nothing could have been taken from it
    rw [hcons] at hempty
    exact absurd hempty (Multiset.cons_ne_zero)
  · intro b' hmem
    apply h.stocked b'
    change b' ∈ x.queue.heap.contents
    rw [hcons]
    exact Multiset.mem_cons_of_mem hmem

theorem Lawful.remove {x : Session} {P : Party → Post} {log : List WriteMark}
    (h : Lawful T ⟨x, P, log⟩) : Lawful T ⟨x.remove, P, log⟩ where
  completed := by simp [Session.remove]
  closed := by simp [Session.remove, Queue.close]
  idle := nofun
  running := nofun
  worker := h.worker
  emptied _ := Heap.contents_withCapacity 0
  stocked b hb := by simp [Session.remove, Queue.close] at hb

theorem Lawful.turn (h : l.Lawful T) (t : Turn T l l') : l'.Lawful T := by
  cases t with
  | adjust | join | leave | begin | goOn | settle | crash =>
    exact ⟨h.completed, h.closed, h.idle, h.running, h.worker, h.emptied, h.stocked⟩
  | @fall x P log p d d' =>
    have hremoved : Lawful T ⟨x.remove, P, log⟩ := h.remove
    exact ⟨hremoved.completed, hremoved.closed, hremoved.idle, hremoved.running, hremoved.worker,
      hremoved.emptied, hremoved.stocked⟩
  | take b rest hb => exact h.take hb
  | succeed p d hp hw =>
    -- neither record of a write touches the stage, the queue or the worker
    split <;> exact ⟨h.completed, h.closed, h.idle, h.running, h.worker, h.emptied, h.stocked⟩
  | @work x P log w hx hw =>
    have hstarted : x.worker ≠ .absent := by
      rintro habsent
      rw [habsent] at hx
      cases hx
    refine ⟨h.completed, h.closed, h.idle, h.running, ?_, h.emptied, h.stocked⟩
    exact iff_of_true (h.worker.mpr hstarted) hw
  | activate => exact h.activate
  | enqueue b hb hc => exact h.enqueue hb hc
  | reclose hc =>
    refine ⟨h.completed, ?_, h.idle, h.running, h.worker, ?_, ?_⟩
    · exact iff_of_true rfl (h.closed.mp hc)
    · intro _
      exact Heap.contents_withCapacity 0
    · intro b hb
      simp [Queue.close] at hb
  | remove => exact h.remove

/-- A subscriber only ever goes on to a stage that its present one leads to. -/
theorem Turn.stage_leads (t : Turn T l l') : l.session.stage.Leads l'.session.stage := by
  cases t with
  | adjust | join | leave | begin | goOn | settle | crash | take | work | enqueue | reclose =>
    exact .refl _
  | succeed p d hp hw => split <;> exact .refl _
  | @activate x P log =>
    cases hs : x.stage with
    | registered =>
      refine .inr (.inl ⟨rfl, ?_⟩)
      simp only [Session.activate, hs]
      split <;> rfl
    | active =>
      simp only [Session.activate, hs]
      exact .refl _
    | removed =>
      simp only [Session.activate, hs]
      exact .refl _
  | @remove x P log =>
    by_cases hs : x.stage = .removed
    · exact .inl hs
    · exact .inr (.inr ⟨hs, rfl⟩)
  | fall p d d' hp hw hx hd => exact .inr (.inr ⟨hx, rfl⟩)

/-- A subscriber that is registered has no worker, an active one has. -/
theorem Lawful.worker_of_stage (h : l.Lawful T) :
    (l.session.stage = .registered → l.session.worker = .absent) ∧
      (l.session.stage = .active → l.session.worker ≠ .absent) := by
  refine ⟨?_, fun hs => h.worker.mp (h.running hs)⟩
  intro hs
  by_contra hw
  have hstarted := h.worker.mpr hw
  rw [h.idle hs] at hstarted
  cases hstarted

/-- Nothing can be taken from a closed queue. -/
theorem Lawful.open_of_pop? (h : l.Lawful T) {b : Batch Nat} {rest : Heap Nat}
    (hb : l.session.queue.heap.pop? = some (b, rest)) : l.session.queue.closed = false := by
  by_contra hc
  have hnone := (Heap.pop?_eq_none_iff _).mpr (h.emptied (eq_true_of_ne_false hc))
  rw [hb] at hnone
  cases hnone

/-- What is taken from a queue was published. -/
theorem Lawful.admits_of_pop? (h : l.Lawful T) {b : Batch Nat} {rest : Heap Nat}
    (hb : l.session.queue.heap.pop? = some (b, rest)) : T.admits b := by
  apply h.stocked b
  rw [Heap.contents_of_pop? hb]
  exact Multiset.mem_cons_self b _

end Lane

end Multicast
