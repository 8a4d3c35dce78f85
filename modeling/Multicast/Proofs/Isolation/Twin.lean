import Mathlib.Data.List.Forall2
import Mathlib.Logic.Relator
import Multicast.Proofs.Isolation.Directory
import Multicast.Proofs.Registry.Turn

/-! One subscriber in two registries. The calls that deal with it have other numbers in the one than
in the other; but for that it stands in both as it would, and whatever is done to it in both leaves
it so. -/

namespace Multicast

open List (Forall₂)

/-- Sinks that are the same but for the parties that are about to send, which answer to each
other. -/
inductive Sink.Twin (P : Party → Party → Prop) : Sink → Sink → Prop
  | scripted (outcomes : List WriteOutcome) : Twin P (.scripted outcomes) (.scripted outcomes)
  | channel {c : Channel (Batch Nat)} {ps : List Party} (senders : Forall₂ P c.senders ps) :
    Twin P (.channel c) (.channel { c with senders := ps })

/-- A subscriber that was registered with the request, and one that is the same but for the parties
that deal with it, which answer to each other. -/
inductive Session.Twin (request : Subscription) (P : Party → Party → Prop) (x : Session) :
    Session → Prop
  | mk {g : Gate} {k : Sink} (line : Forall₂ P x.queue.gate.line g.line) (sink : x.sink.Twin P k)
    (token : x.token = request.token) (filter : x.filter = request.filter) :
    Twin request P x { x with sink := k, queue := { x.queue with gate := g } }

/-- What surrounds a subscriber that is registered with the request is the same in two registries
that have not been stopped and do nothing around the life of a subscriber. -/
structure Around (request : Subscription) (r r' : Registry) : Prop where
  hooks : r.hooks = {} ∧ r'.hooks = {}
  running : r.stopped = false ∧ r'.stopped = false
  config : r'.config = r.config
  now : r'.now = r.now
  tokens : ∀ t, request.token = some t → (t ∈ r'.cancelledTokens ↔ t ∈ r.cancelledTokens)

theorem Around.nanos {request : Subscription} {r r' : Registry} (h : Around request r r') :
    r'.nanos = r.nanos := by
  rw [Registry.nanos, Registry.nanos, h.now]

/-- The subscriber `s` of one registry stands as the subscriber `s'` of another one does. -/
structure Alike (request : Subscription) (P : Party → Party → Prop) (s s' : SessionId)
    (r r' : Registry) : Prop extends Around request r r' where
  twin : ∃ x x', r.session? s = some x ∧ r'.session? s' = some x' ∧ x.Twin request P x'
  begun : r'.begun s' = r.begun s

variable {request : Subscription} {P : Party → Party → Prop} {p p' : Party}

/-! ### Lines of parties -/

theorem forall₂_erase (hP : Relator.BiUnique P) (hp : P p p') {l l' : List Party}
    (h : Forall₂ P l l') : Forall₂ P (l.erase p) (l'.erase p') := by
  -- along both lines at once: the two parties stand at the same place, since `P` is one to one
  induction h with
  | nil => exact .nil
  | @cons q q' rest rest' hq hrest ih =>
    have hsame : q = p ↔ q' = p' := Relator.rel_eq hP hq hp
    by_cases h : q = p
    · rw [h, hsame.mp h, List.erase_cons_head, List.erase_cons_head]
      exact hrest
    · have h' : ¬ q' = p' := fun heq => h (hsame.mpr heq)
      rw [List.erase_cons_tail (by simpa using h), List.erase_cons_tail (by simpa using h')]
      exact .cons hq ih

theorem head?_eq_of_forall₂ (hP : Relator.BiUnique P) (hp : P p p') {l l' : List Party}
    (h : Forall₂ P l l') : (l'.head? == some p') = (l.head? == some p) := by
  cases h with
  | nil => rfl
  | cons hq _ =>
    have hsame := Relator.rel_eq hP hq hp
    rw [Bool.eq_iff_iff]
    simpa using hsame.symm

/-! ### Sinks -/

namespace Sink.Twin

variable {k k' : Sink}

/-- A sink that nobody is about to send to. -/
theorem of_unused (h : k.senders = []) : k.Twin P k := by
  cases k with
  | scripted outcomes => exact .scripted outcomes
  | channel c =>
    have hnobody : Forall₂ P c.senders c.senders := by
      rw [show c.senders = [] from h]
      exact .nil
    exact .channel hnobody

theorem startWrite (h : k.Twin P k') (hp : P p p') (now : Nat) :
    (k.startWrite now p).1.Twin P (k'.startWrite now p').1 ∧
      (k'.startWrite now p').2 = (k.startWrite now p).2 := by
  cases h with
  | scripted outcomes => exact ⟨.scripted outcomes.tail, rfl⟩
  | channel hsenders => exact ⟨.channel (List.rel_append hsenders (.cons hp .nil)), rfl⟩

theorem ready (hP : Relator.BiUnique P) (h : k.Twin P k') (hp : P p p') (now : Nat)
    (point : WritePoint) : k'.ready now p' point = k.ready now p point := by
  cases h with
  | scripted outcomes => cases point <;> rfl
  | channel hsenders =>
    cases point with
    | playing moment outcome => rfl
    | held => rfl
    | sending => simp only [Sink.ready, Channel.mayGo, head?_eq_of_forall₂ hP hp hsenders]

theorem step (hP : Relator.BiUnique P) (h : k.Twin P k') (hp : P p p') (now : Nat) (b : Batch Nat)
    (point : WritePoint) : (k.step now p b point).1.Twin P (k'.step now p' b point).1 ∧
      (k'.step now p' b point).2 = (k.step now p b point).2 := by
  have hstay (progress : Progress WritePoint (Except SinkError Unit)) :
      k.Twin P k' ∧ progress = progress := ⟨h, rfl⟩
  cases point with
  | playing moment outcome => cases outcome <;> exact hstay _
  | held => exact hstay _
  | sending =>
    cases h with
    | scripted outcomes => exact hstay _
    | @channel c ps hsenders =>
      have herase := forall₂_erase hP hp hsenders
      cases hc : c.closed with
      | true =>
        simp only [Sink.step, Channel.send, hc, if_true]
        exact ⟨.channel herase, trivial⟩
      | false =>
        simp only [Sink.step, Channel.send, hc, Bool.false_eq_true, if_false]
        exact ⟨.channel herase, trivial⟩

theorem mono {Q : Party → Party → Prop} (h : k.Twin P k') (hPQ : ∀ p p', P p p' → Q p p') :
    k.Twin Q k' := by
  cases h with
  | scripted outcomes => exact .scripted outcomes
  | channel hsenders => exact .channel (hsenders.imp hPQ)

/-- Two channels that are the same but for those about to send, or one script. -/
theorem exists_eq (h : k.Twin P k') : (∃ outcomes, k = .scripted outcomes ∧ k' = k) ∨
    ∃ c ps, k = .channel c ∧ k' = .channel { c with senders := ps } ∧ Forall₂ P c.senders ps := by
  cases h with
  | scripted outcomes => exact .inl ⟨outcomes, rfl, rfl⟩
  | channel hsenders => exact .inr ⟨_, _, rfl, rfl, hsenders⟩

end Sink.Twin

/-! ### Subscribers -/

namespace Session.Twin

variable {x x' : Session}

theorem mono {Q : Party → Party → Prop} (h : x.Twin request P x')
    (hPQ : ∀ p p', P p p' → Q p p') : x.Twin request Q x' := by
  cases h with
  | mk hline hsink htoken hfilter => exact .mk (hline.imp hPQ) (hsink.mono hPQ) htoken hfilter

theorem withSink (h : x.Twin request P x') {k k' : Sink} (hk : k.Twin P k') :
    Session.Twin request P { x with sink := k } { x' with sink := k' } := by
  cases h with
  | mk hline _ htoken hfilter => exact .mk hline hk htoken hfilter

theorem withWorker (h : x.Twin request P x') (w : WorkerPoint Delivery) :
    Session.Twin request P { x with worker := w } { x' with worker := w } := by
  cases h with
  | mk hline hsink htoken hfilter => exact .mk hline hsink htoken hfilter

theorem sink_twin (h : x.Twin request P x') : x.sink.Twin P x'.sink := by
  cases h with
  | mk _ hsink _ _ => exact hsink

/-- The queues are the same but for the lines at their gates. -/
theorem queue (h : x.Twin request P x') :
    ∃ g, x'.queue = { x.queue with gate := g } ∧ Forall₂ P x.queue.gate.line g.line := by
  cases h with
  | mk hline _ _ _ => exact ⟨_, rfl, hline⟩

theorem withQueue (h : x.Twin request P x') {q : Queue Nat} {g : Gate}
    (hg : Forall₂ P q.gate.line g.line) :
    Session.Twin request P { x with queue := q } { x' with queue := { q with gate := g } } := by
  cases h with
  | mk _ hsink htoken hfilter => exact .mk hg hsink htoken hfilter

theorem leave (hP : Relator.BiUnique P) (h : x.Twin request P x') (hp : P p p') :
    Session.Twin request P { x with queue := x.queue.leave p }
      { x' with queue := x'.queue.leave p' } := by
  obtain ⟨g, hq, hline⟩ := h.queue
  rw [hq]
  exact h.withQueue (q := x.queue.leave p) (forall₂_erase hP hp hline)

theorem recordWrite (h : x.Twin request P x') :
    x.recordWrite.Twin request P x'.recordWrite := by
  cases h with
  | mk hline hsink htoken hfilter => exact .mk hline hsink htoken hfilter

theorem recordDelivery (h : x.Twin request P x') (frame : Batch Nat) :
    (x.recordDelivery frame).Twin request P (x'.recordDelivery frame) := by
  cases h with
  | mk hline hsink htoken hfilter => exact .mk hline hsink htoken hfilter

theorem remove (h : x.Twin request P x') : x.remove.Twin request P x'.remove := by
  cases h with
  | mk hline hsink htoken hfilter => exact .mk hline hsink htoken hfilter

theorem activate (h : x.Twin request P x') : x.activate.1.Twin request P x'.activate.1 ∧
    x'.activate.2 = x.activate.2 := by
  cases h with
  | mk hline hsink htoken hfilter =>
    obtain ⟨peer, keys, token, filter, sink, stage, completed, cursor, lastSent, writes, queue,
      worker⟩ := x
    cases stage with
    | active => exact ⟨.mk hline hsink htoken hfilter, rfl⟩
    | removed => exact ⟨.mk hline hsink htoken hfilter, rfl⟩
    | registered =>
      unfold Session.activate Queue.start
      dsimp only
      cases (queue.closed || queue.started) with
      | true =>
        refine ⟨?_, rfl⟩
        exact .mk hline hsink htoken hfilter
      | false =>
        refine ⟨?_, rfl⟩
        exact .mk hline hsink htoken hfilter

end Session.Twin

theorem Alike.mono {Q : Party → Party → Prop} {s s' : SessionId} {r r' : Registry}
    (h : Alike request P s s' r r') (hPQ : ∀ p p', P p p' → Q p p') :
    Alike request Q s s' r r' := by
  obtain ⟨x, x', hx, hx', ht⟩ := h.twin
  exact ⟨h.toAround, ⟨x, x', hx, hx', ht.mono hPQ⟩, h.begun⟩

end Multicast
