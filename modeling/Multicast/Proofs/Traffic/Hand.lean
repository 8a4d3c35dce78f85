import Mathlib.Algebra.Order.Group.Multiset
import Multicast.Proofs.Heap.Contents
import Multicast.Proofs.Registry.Posts

/-! Deliveries in hand. Between the moment at which a batch is taken up for a subscriber and the
moment at which its delivery has been accounted for, some worker or call has it in hand. A registry
together with all that is in hand is its traffic; `Transit` lists what can happen to it at once, and
what every transit keeps holds of every run. -/

namespace Multicast

/-- What a worker or a call has in hand. The path is the one on which it counts what it has done. -/
inductive Hand
  /-- A batch for which a delivery of some kind stands in line. -/
  | line (path kind : DeliveryKind) (s : SessionId) (b : Batch Nat)
  | busy (path : DeliveryKind) (s : SessionId) (d : Delivery)
  /-- A delivery that has had its turn and has not been reported yet. -/
  | reached (path : DeliveryKind)
  /-- A live batch that a queue has taken and that has not been reported yet. -/
  | offered
  /-- What was in hand before a crash. -/
  | lost
  deriving DecidableEq

/-- A registry and what is in hand. -/
structure Traffic where
  registry : Registry
  hands : Multiset Hand

/-- Whether two states of a subscriber differ in nothing that deliveries are about. -/
structure Session.SameGoods (x y : Session) : Prop where
  token : y.token = x.token
  filter : y.filter = x.filter
  lastSent : y.lastSent = x.lastSent
  writes : y.writes = x.writes
  worker : y.worker = x.worker
  pending : y.queue.heap.contents = x.queue.heap.contents

theorem Session.SameGoods.refl (x : Session) : x.SameGoods x := ⟨rfl, rfl, rfl, rfl, rfl, rfl⟩

/-- Whether an event tells of a batch on its way. -/
def Event.IsTraffic : Event → Prop
  | .enqueued .. | .discarded .. | .staleSkipped .. | .writeBegun .. | .writeSucceeded ..
  | .writeFailed .. => True
  | _ => False

/-- Whether a counter counts batches on their way. -/
def Counter.IsTraffic : Counter → Prop
  | .routed _ | .pingsSent | .delivered _ | .staleSkips _ | .sinkFailures _ => True
  | _ => False

/-- A change of what is counted that concerns no batch on its way. -/
def Metrics.Aside (f : Metrics → Metrics) : Prop :=
  ∀ m, (f m).writes = m.writes ∧ ∀ c, c.IsTraffic → (f m).value c = m.value c

/-- The queue of a subscriber with a batch less. -/
def Session.withHeap (x : Session) (heap : Heap Nat) : Session :=
  { x with queue := { x.queue with heap := heap } }

/-- What a write that succeeds makes of a subscriber. -/
def Session.served (x : Session) (d : Delivery) : Session :=
  if d.keepAlive then x.recordWrite else x.recordWrite.recordDelivery d.frame

theorem Session.exists_served_eq (x : Session) (d : Delivery) : ∃ cursor lastSent,
    (lastSent = x.lastSent ∨ lastSent = some d.frame) ∧
      x.served d = { x with writes := x.writes + 1, cursor := cursor, lastSent := lastSent } := by
  unfold Session.served
  split
  · exact ⟨x.cursor, x.lastSent, .inl rfl, rfl⟩
  · exact ⟨_, some d.frame, .inr rfl, rfl⟩

/-- What can happen to the traffic at once while a task goes on. Calls and workers stay as they
are. -/
inductive Transit : Traffic → Traffic → Prop
  | note {r H} (e : Event) (he : ¬ e.IsTraffic) : Transit ⟨r, H⟩ ⟨r.note e, H⟩
  | count {r H} (f : Metrics → Metrics) (hf : Metrics.Aside f) : Transit ⟨r, H⟩ ⟨r.count f, H⟩
  | roster {r H} (members : List SessionId) (stopped : Bool) :
      Transit ⟨r, H⟩ ⟨{ r with members := members, stopped := stopped }, H⟩
  | touch {r H s x y} (hx : r.session? s = some x) (h : x.SameGoods y) :
      Transit ⟨r, H⟩ ⟨r.put s y [], H⟩
  /-- The queue of a subscriber that leaves drops what is pending. -/
  | discard {r H s x} (who : SessionName) (hx : r.session? s = some x) :
      Transit ⟨r, H⟩ ⟨r.put s x.remove [.discarded who x.queue.heap.toList], H⟩
  /-- A live batch that a subscriber wants goes into its queue. -/
  | accept {r H s x} (who : SessionName) (b : Batch Nat) (hx : r.session? s = some x)
      (hcancelled : r.isCancelled s = false) (haccepts : x.accepts b = true) :
      Transit ⟨r, H⟩ ⟨r.put s (x.withHeap (x.queue.heap.push b)) [.enqueued who b], .offered ::ₘ H⟩
  /-- A worker takes the batch that stands first. -/
  | take {r H s x} (b : Batch Nat) (rest : Heap Nat) (hx : r.session? s = some x)
      (hb : x.queue.heap.pop? = some (b, rest)) :
      Transit ⟨r, H⟩ ⟨r.put s (x.withHeap rest) [], .line .live .live s b ::ₘ H⟩
  /-- A call takes up a batch for a subscriber that is not cancelled; a ping takes the frame that is
  due now. -/
  | join {r H s x} (path : DeliveryKind) (b : Batch Nat) (hx : r.session? s = some x)
      (hpath : path ≠ .live) (hcancelled : r.isCancelled s = false)
      (hping : path = .ping → b = x.pingFrame) :
      Transit ⟨r, H⟩ ⟨r, .line path path s b ::ₘ H⟩
  /-- A call finds the queue closed and gives up. -/
  | quit {r H s} (path kind : DeliveryKind) (b : Batch Nat) (hpath : path ≠ .live) :
      Transit ⟨r, .line path kind s b ::ₘ H⟩ ⟨r, H⟩
  | skip {r H s} (path kind : DeliveryKind) (b : Batch Nat) (who : SessionName)
      (position : Option Nat) (hkind : kind ≠ .ping) :
      Transit ⟨r, .line path kind s b ::ₘ H⟩
        ⟨(r.note (.staleSkipped who kind b position)).count (·.staleSkip kind),
          .reached path ::ₘ H⟩
  | begin {r H s x} (path : DeliveryKind) (b : Batch Nat) (d : Delivery) (who : SessionName)
      (sink : Sink) (hx : r.session? s = some x) (hwho : who.id = s)
      (hframe : d.frame = r.hooks.process x b) (hw : d.isWriting = true) :
      Transit ⟨r, .line path d.kind s b ::ₘ H⟩
        ⟨r.put s { x with sink := sink } [.writeBegun who d.kind d.keepAlive d.frame],
          .busy path s d ::ₘ H⟩
  /-- A delivery goes on without coming to its end. -/
  | goOn {r H s} (path : DeliveryKind) (d d' : Delivery) (hkind : d'.kind = d.kind)
      (hframe : d'.frame = d.frame) (hw : d'.isWriting = d.isWriting) :
      Transit ⟨r, .busy path s d ::ₘ H⟩ ⟨r, .busy path s d' ::ₘ H⟩
  | succeed {r H s x} (path : DeliveryKind) (d : Delivery) (who : SessionName) (took : Duration)
      (hx : r.session? s = some x) (hwho : who.id = s) (hw : d.isWriting = true) :
      Transit ⟨r, .busy path s d ::ₘ H⟩
        ⟨(r.put s (x.served d) [.writeSucceeded who d.kind d.keepAlive d.frame]).count
            fun m => (m.writeTook d.kind took).batchDelivered d.kind,
          .reached path ::ₘ H⟩
  | fail {r H s} (path : DeliveryKind) (d d' : Delivery) (who : SessionName) (e : SinkError)
      (took : Duration) (hw : d.isWriting = true) (hkind : d'.kind = d.kind)
      (hframe : d'.frame = d.frame) (hw' : d'.isWriting = false) :
      Transit ⟨r, .busy path s d ::ₘ H⟩
        ⟨(r.note (.writeFailed who d.kind e)).count
            fun m => (m.writeTook d.kind took).sinkFailure d.kind,
          .busy path s d' ::ₘ H⟩
  /-- The callback after a failed write has returned, or there was none to call. -/
  | finish {r H s} (path : DeliveryKind) (d : Delivery) (hw : d.isWriting = false) :
      Transit ⟨r, .busy path s d ::ₘ H⟩ ⟨r, .reached path ::ₘ H⟩
  /-- A worker has nothing to report. -/
  | rest {r H} : Transit ⟨r, .reached .live ::ₘ H⟩ ⟨r, H⟩
  | reportLive {r H} (n : Nat) : Transit ⟨r, Multiset.replicate n .offered + H⟩
      ⟨r.count (·.batchPublished .live n), H⟩
  | reportHistorical {r H} (n : Nat) :
      Transit ⟨r, Multiset.replicate n (.reached .historical) + H⟩
        ⟨r.count (·.batchPublished .historical n), H⟩
  | reportPings {r H} (n : Nat) : Transit ⟨r, Multiset.replicate n (.reached .ping) + H⟩
      ⟨r.count (·.pingPass n), H⟩
  | crash {r H} : Transit ⟨r, H⟩ ⟨r, .lost ::ₘ H⟩
  /-- A crash takes along what else was in hand. -/
  | abandon {r H} (h : Hand) (hlost : .lost ∈ H) : Transit ⟨r, h ::ₘ H⟩ ⟨r, H⟩

/-- A chain of transits. -/
abbrev Transits : Traffic → Traffic → Prop := Relation.ReflTransGen Transit

/-- Whether two registries have the same calls and the same workers. -/
structure Registry.SameTasks (r v : Registry) : Prop where
  calls : v.calls = r.calls
  worker : ∀ s, (v.session? s).map Session.worker = (r.session? s).map Session.worker

/-- Whether two states are of the same subscriber, with its worker where it was. -/
structure Session.Stays (x y : Session) : Prop where
  token : y.token = x.token
  filter : y.filter = x.filter
  worker : y.worker = x.worker

/-- A transit brings nobody in, and whoever is there stays. -/
theorem Transit.stays {a b : Traffic} (h : Transit a b) (s : SessionId) :
    (a.registry.session? s = none ∧ b.registry.session? s = none) ∨
      ∃ x y, a.registry.session? s = some x ∧ b.registry.session? s = some y ∧ x.Stays y := by
  have hsame (r : Registry) : (r.session? s = none ∧ r.session? s = none) ∨
      ∃ x y, r.session? s = some x ∧ r.session? s = some y ∧ x.Stays y := by
    cases hx : r.session? s with
    | none => exact .inl ⟨rfl, rfl⟩
    | some x => exact .inr ⟨x, x, rfl, rfl, rfl, rfl, rfl⟩
  have hput {r : Registry} {t : SessionId} {x y : Session} (hx : r.session? t = some x)
      (hy : x.Stays y) (es : List Event) :
      (r.session? s = none ∧ (r.put t y es).session? s = none) ∨
        ∃ x y', r.session? s = some x ∧ (r.put t y es).session? s = some y' ∧ x.Stays y' := by
    by_cases hst : s = t
    · subst hst
      exact .inr ⟨x, y, hx, Registry.session?_put_self hx y es, hy⟩
    · rw [Registry.session?_put_of_ne r hst]
      exact hsame r
  cases h with
  | touch hx h => exact hput hx ⟨h.token, h.filter, h.worker⟩ []
  | discard | accept | take | begin =>
    refine hput ‹_› ?_ _
    exact ⟨rfl, rfl, rfl⟩
  | @succeed r H t x path d who took hx =>
    obtain ⟨cursor, lastSent, -, hserved⟩ := x.exists_served_eq d
    have hstays : x.Stays (x.served d) := by
      rw [hserved]
      exact ⟨rfl, rfl, rfl⟩
    exact hput hx hstays [.writeSucceeded who d.kind d.keepAlive d.frame]
  | _ => exact hsame _

theorem Transit.keeps {a b : Traffic} (h : Transit a b) : a.registry.SameTasks b.registry where
  calls := by cases h <;> rfl
  worker s := by
    rcases h.stays s with ⟨hx, hy⟩ | ⟨x, y, hx, hy, hstays⟩
    · rw [hx, hy]
    · rw [hx, hy, Option.map_some, Option.map_some, hstays.worker]

theorem Transits.keeps {a b : Traffic} (h : Transits a b) : a.registry.SameTasks b.registry := by
  induction h with
  | refl => exact ⟨rfl, fun _ => rfl⟩
  | tail _ hstep ih =>
    have hkeeps := hstep.keeps
    exact ⟨hkeeps.calls.trans ih.calls, fun s => (hkeeps.worker s).trans (ih.worker s)⟩

namespace Registry

/-- What leads from `r` to `v` turns what is in hand from `G` into `G'`, whatever else is in hand. -/
def Carries (r : Registry) (G : Multiset Hand) (v : Registry) (G' : Multiset Hand) : Prop :=
  ∀ H, Transits ⟨r, G + H⟩ ⟨v, G' + H⟩

variable {r u v : Registry} {s : SessionId} {x : Session} {G G' G'' K : Multiset Hand}

namespace Carries

theorem refl (r : Registry) (G : Multiset Hand) : Carries r G r G := fun _ => .refl

theorem trans (h : Carries r G u G') (h' : Carries u G' v G'') : Carries r G v G'' :=
  fun H => Relation.ReflTransGen.trans (h H) (h' H)

/-- What else is in hand stays there. -/
theorem frame (h : Carries r G v G') (K : Multiset Hand) : Carries r (G + K) v (G' + K) := by
  intro H
  rw [add_assoc, add_assoc]
  exact h (K + H)

/-- One after the other is dropped beside what was lost. -/
theorem transits_abandon (r : Registry) (G : Multiset Hand) {H : Multiset Hand}
    (hlost : .lost ∈ H) : Transits ⟨r, G + H⟩ ⟨r, H⟩ := by
  induction G using Multiset.induction with
  | empty => rw [zero_add]
  | cons g G ih =>
    have hdrop : Transit ⟨r, g ::ₘ (G + H)⟩ ⟨r, G + H⟩ :=
      .abandon g (Multiset.mem_add.mpr (.inr hlost))
    rw [Multiset.cons_add]
    exact Relation.ReflTransGen.head hdrop ih

theorem of_transit (h : ∀ H, Transit ⟨r, G + H⟩ ⟨v, G' + H⟩) : Carries r G v G' :=
  fun H => Relation.ReflTransGen.single (h H)

/-- A transit of a single hand, whatever else is in hand. -/
theorem of_hand {h h' : Hand} (ht : ∀ H, Transit ⟨r, h ::ₘ H⟩ ⟨v, h' ::ₘ H⟩) :
    Carries r {h} v {h'} := by
  apply of_transit
  intro H
  rw [Multiset.singleton_add, Multiset.singleton_add]
  exact ht H

theorem of_gain {h : Hand} (ht : ∀ H, Transit ⟨r, H⟩ ⟨v, h ::ₘ H⟩) : Carries r 0 v {h} := by
  apply of_transit
  intro H
  rw [zero_add, Multiset.singleton_add]
  exact ht H

theorem of_loss {h : Hand} (ht : ∀ H, Transit ⟨r, h ::ₘ H⟩ ⟨v, H⟩) : Carries r {h} v 0 := by
  apply of_transit
  intro H
  rw [zero_add, Multiset.singleton_add]
  exact ht H

theorem note (h : Carries r G u G') {e : Event} (he : ¬ e.IsTraffic) : Carries r G (u.note e) G' :=
  h.trans (of_transit fun _ => .note e he)

theorem count (h : Carries r G u G') {f : Metrics → Metrics} (hf : Metrics.Aside f) :
    Carries r G (u.count f) G' :=
  h.trans (of_transit fun _ => .count f hf)

theorem touch (h : Carries r G u G') {y : Session} (hx : u.session? s = some x)
    (hy : x.SameGoods y) : Carries r G (u.put s y []) G' :=
  h.trans (of_transit fun _ => .touch hx hy)

theorem update (h : Carries r G u G') {f : Session → Session}
    (hf : ∀ x, u.session? s = some x → x.SameGoods (f x)) : Carries r G (u.update s f) G' := by
  cases hx : u.session? s with
  | none =>
    rw [update_of_none hx]
    exact h
  | some x =>
    rw [update_eq_put hx]
    exact h.touch hx (hf x hx)

/-- A change of a queue that leaves alone what is pending. -/
theorem updateQueue (h : Carries r G u G') {f : Queue Nat → Queue Nat}
    (hf : ∀ x, u.session? s = some x → (f x.queue).heap.contents = x.queue.heap.contents) :
    Carries r G (u.updateQueue s f) G' :=
  h.update fun x hx => ⟨rfl, rfl, rfl, rfl, rfl, hf x hx⟩

theorem leave (h : Carries r G u G') (p : Party) : Carries r G (u.leave s p) G' :=
  h.updateQueue fun _ _ => rfl

theorem sink (h : Carries r G u G') (f : Session → Sink) :
    Carries r G (u.update s fun x => { x with sink := f x }) G' :=
  h.update fun _ _ => ⟨rfl, rfl, rfl, rfl, rfl, rfl⟩

/-- A crash takes along whatever was in hand. -/
theorem crash (h : Carries r G u G') : Carries r G u {.lost} := by
  refine h.trans ?_
  intro H
  have hlost : Transit ⟨u, G' + H⟩ ⟨u, G' + (.lost ::ₘ H)⟩ := by
    rw [Multiset.add_cons]
    exact .crash
  refine Relation.ReflTransGen.head hlost ?_
  rw [Multiset.singleton_add]
  exact transits_abandon u G' (Multiset.mem_cons_self _ _)

end Carries

end Registry

end Multicast
