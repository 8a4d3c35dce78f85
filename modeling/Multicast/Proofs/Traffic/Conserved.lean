import Mathlib.Algebra.BigOperators.Group.Multiset.Basic
import Mathlib.Algebra.GroupWithZero.Nat
import Multicast.Proofs.Traffic.Actions
import Multicast.Proofs.Traffic.Counts

/-! What is counted adds up, path by path. A batch is counted once when its delivery has come to its
end and once when it is reported; between the two it is in hand, so that the counters agree whenever
nothing is. -/

namespace Multicast

/-! ### What is in hand -/

namespace Hand

/-- Whether what is in hand is counted on the path on which it was taken up. -/
def IsStraight : Hand → Prop
  | .line path kind _ _ => kind = path
  | .busy path _ d => d.kind = path
  | .reached _ | .offered | .lost => True

/-- Whether a delivery on the path has come to its end and has not been reported. -/
def unreported (k : DeliveryKind) : Hand → Nat
  | .busy path _ d => if path = k ∧ d.isWriting = false then 1 else 0
  | .reached path => if path = k then 1 else 0
  | .line .. | .offered | .lost => 0

/-- Whether a batch was taken from a queue and its delivery has not come to its end. -/
def unsettled : Hand → Nat
  | .line path _ _ _ => if path = .live then 1 else 0
  | .busy path _ d => if path = .live ∧ d.isWriting = true then 1 else 0
  | .reached _ | .offered | .lost => 0

/-- Whether a batch was put into a queue and has not been reported. -/
def unpublished : Hand → Nat
  | .offered => 1
  | .line .. | .busy .. | .reached _ | .lost => 0

/-- How often something holds of what is in hand. -/
def tally (w : Hand → Nat) (H : Multiset Hand) : Nat := (H.map w).sum

variable {w : Hand → Nat}

@[simp] theorem tally_zero : tally w 0 = 0 := rfl

@[simp] theorem tally_cons (h : Hand) (H : Multiset Hand) : tally w (h ::ₘ H) = w h + tally w H := by
  rw [tally, Multiset.map_cons, Multiset.sum_cons, tally]

@[simp] theorem tally_replicate_add (n : Nat) (h : Hand) (H : Multiset Hand) :
    tally w (Multiset.replicate n h + H) = n * w h + tally w H := by
  induction n with
  | zero => rw [Multiset.replicate_zero, zero_add, Nat.zero_mul, Nat.zero_add]
  | succ n ih =>
    rw [Multiset.replicate_succ, Multiset.cons_add, tally_cons, ih, Nat.succ_mul]
    omega

end Hand

/-- The number of batches that were discarded at an event. -/
def Event.discards : Event → Nat
  | .discarded _ batches => batches.length
  | _ => 0

theorem Event.discards_of_aside {e : Event} (he : ¬ e.IsTraffic) : e.discards = 0 := by
  cases e with
  | discarded => exact absurd trivial he
  | _ => rfl

namespace Registry

/-- The number of batches that are pending for anybody. -/
def pendingCount (r : Registry) : Nat := (r.sessions.map fun x => x.queue.size).sum

/-- The number of batches that were pending in queues when these closed. -/
def discardedCount (r : Registry) : Nat := (r.history.map Event.discards).sum

/-- The number of writes of all subscribers ever registered. -/
def writesCount (r : Registry) : Nat := (r.sessions.map Session.writes).sum

variable {r : Registry} {s : SessionId} {x y : Session}

/-- What is summed up over the subscribers changes with the one that changes. -/
theorem exists_sum_put (f : Session → Nat) (hx : r.session? s = some x) :
    ∃ n, (r.sessions.map f).sum = f x + n ∧
      ∀ y es, ((r.put s y es).sessions.map f).sum = f y + n := by
  have hx' : r.sessions[s]? = some x := hx
  have hget : (r.sessions.map f)[s]? = some (f x) := by
    rw [List.getElem?_map, hx', Option.map_some]
  obtain ⟨n, hsum, hset⟩ := exists_sum_set hget
  refine ⟨n, hsum, fun y es => ?_⟩
  rw [put, List.map_set]
  exact hset (f y)

theorem writesCount_put (hx : r.session? s = some x) (hy : y.writes = x.writes) (es : List Event) :
    (r.put s y es).writesCount = r.writesCount := by
  obtain ⟨n, hbefore, hafter⟩ := exists_sum_put Session.writes hx
  rw [writesCount, writesCount, hbefore, hafter, hy]

/-- The number of batches that are pending or were discarded. -/
def stock (r : Registry) : Nat := r.pendingCount + r.discardedCount

@[simp] theorem metrics_put (es : List Event) : (r.put s y es).metrics = r.metrics := rfl

@[simp] theorem metrics_count (f : Metrics → Metrics) : (r.count f).metrics = f r.metrics := rfl

@[simp] theorem metrics_note (e : Event) : (r.note e).metrics = r.metrics := rfl

@[simp] theorem stock_count (f : Metrics → Metrics) : (r.count f).stock = r.stock := rfl

@[simp] theorem stock_note (e : Event) : (r.note e).stock = r.stock + e.discards := by
  have hpending : (r.note e).pendingCount = r.pendingCount := rfl
  have hdiscarded : (r.note e).discardedCount = e.discards + r.discardedCount := List.sum_cons
  rw [stock, stock, hpending, hdiscarded]
  omega

theorem stock_put (hx : r.session? s = some x) (y : Session) (es : List Event) :
    (r.put s y es).stock + x.queue.size = r.stock + y.queue.size + (es.map Event.discards).sum := by
  obtain ⟨n, hbefore, hafter⟩ := exists_sum_put (fun x => x.queue.size) hx
  have hpending : r.pendingCount = x.queue.size + n := hbefore
  have hpending' : (r.put s y es).pendingCount = y.queue.size + n := hafter y es
  have hdiscarded : (r.put s y es).discardedCount =
      (es.map Event.discards).sum + r.discardedCount := by
    rw [discardedCount, put, List.map_append, List.sum_append, discardedCount]
  rw [stock, stock, hpending, hpending', hdiscarded]
  omega

end Registry

/-! ### The laws -/

namespace Traffic

/-- On the paths past the queues what has come to its end is reported, or will be. -/
def DirectLaw (a : Traffic) : Prop :=
  ∀ k, k ≠ .live → a.registry.metrics.settled k =
    a.registry.metrics.reported k + Hand.tally (Hand.unreported k) a.hands

/-- A live batch that a queue took is pending, was discarded, is under way or has come to its
end. -/
def LiveLaw (a : Traffic) : Prop :=
  a.registry.metrics.settled .live + a.registry.stock + Hand.tally Hand.unsettled a.hands =
    a.registry.metrics.reported .live + Hand.tally Hand.unpublished a.hands

/-- What holds of the traffic at every moment; the laws hold up to the first crash. -/
structure Conserved (a : Traffic) : Prop where
  straight : ∀ h ∈ a.hands, h.IsStraight
  tallied : a.registry.metrics.Tallied a.registry.writesCount
  laws : .lost ∉ a.hands → a.DirectLaw ∧ a.LiveLaw

end Traffic

open Traffic Hand Metrics Registry

namespace Transit

variable {a b : Traffic}

theorem straight (t : Transit a b) (h : ∀ h ∈ a.hands, h.IsStraight) :
    ∀ h ∈ b.hands, h.IsStraight := by
  cases t with
  | note | count | roster | touch | discard => exact h
  | accept who b hx hcancelled haccepts => exact Multiset.forall_mem_cons.mpr ⟨trivial, h⟩
  | crash => exact Multiset.forall_mem_cons.mpr ⟨trivial, h⟩
  | take | join => exact Multiset.forall_mem_cons.mpr ⟨rfl, h⟩
  | quit | rest | abandon => exact (Multiset.forall_mem_cons.mp h).2
  | skip | succeed | finish =>
    exact Multiset.forall_mem_cons.mpr ⟨trivial, (Multiset.forall_mem_cons.mp h).2⟩
  | begin =>
    obtain ⟨hline, hrest⟩ := Multiset.forall_mem_cons.mp h
    exact Multiset.forall_mem_cons.mpr ⟨hline, hrest⟩
  | goOn path d d' hkind | fail path d d' who e took hw hkind =>
    obtain ⟨hbusy, hrest⟩ := Multiset.forall_mem_cons.mp h
    exact Multiset.forall_mem_cons.mpr ⟨hkind.trans hbusy, hrest⟩
  | reportLive | reportHistorical | reportPings =>
    exact fun g hg => h g (Multiset.mem_add.mpr (.inr hg))

theorem tallied (t : Transit a b) (h : a.registry.metrics.Tallied a.registry.writesCount) :
    b.registry.metrics.Tallied b.registry.writesCount := by
  have hput {r : Registry} {s : SessionId} {x y : Session} (hx : r.session? s = some x)
      (hy : y.writes = x.writes) (es : List Event) (h : r.metrics.Tallied r.writesCount) :
      (r.put s y es).metrics.Tallied (r.put s y es).writesCount := by
    rw [writesCount_put hx hy]
    exact h
  cases t with
  | note | roster | join | quit | goOn | finish | rest | crash | abandon => exact h
  | count f hf => exact h.aside hf
  | touch hx hy => exact hput hx hy.writes [] h
  | discard | accept | take | begin =>
    refine hput ‹_› ?_ _ h
    rfl
  | skip path kind b who position hkind => exact Tallied.staleSkip h hkind
  | fail path d d' who e took => exact Tallied.fail h took
  | reportLive n | reportHistorical n => exact Tallied.batchPublished h
  | reportPings n => exact Tallied.pingPass h
  | @succeed r H s x path d who took hx =>
    obtain ⟨cursor, lastSent, -, hserved⟩ := x.exists_served_eq d
    have hwrites : (x.served d).writes = x.writes + 1 := by rw [hserved]
    obtain ⟨n, hbefore, hafter⟩ := exists_sum_put Session.writes hx
    have hmore : (r.put s (x.served d)
        [.writeSucceeded who d.kind d.keepAlive d.frame]).writesCount = r.writesCount + 1 := by
      rw [writesCount, writesCount, hbefore, hafter, hwrites]
      omega
    have hsucceeded := Tallied.succeed (j := d.kind) h took
    rw [← hmore] at hsucceeded
    exact hsucceeded

/-- What was lost stays so. -/
theorem lost_mem (t : Transit a b) (h : .lost ∈ a.hands) : .lost ∈ b.hands := by
  cases t with
  | abandon h hlost => exact hlost
  | note | count | roster | touch | discard => exact h
  | accept | take | join | crash => exact Multiset.mem_cons_of_mem h
  | quit | rest => exact (Multiset.mem_cons.mp h).resolve_left nofun
  | skip | begin | goOn | succeed | fail | finish =>
    exact Multiset.mem_cons_of_mem ((Multiset.mem_cons.mp h).resolve_left nofun)
  | reportLive n | reportHistorical n | reportPings n =>
    refine (Multiset.mem_add.mp h).resolve_left fun hmem => ?_
    cases Multiset.eq_of_mem_replicate hmem

theorem directLaw (t : Transit a b) (hs : ∀ h ∈ a.hands, h.IsStraight) (hlost : .lost ∉ b.hands)
    (h : a.DirectLaw) : b.DirectLaw := by
  intro k hk
  have hbefore := h k hk
  have hhistorical : DeliveryKind.historical ≠ .ping := nofun
  have hlive : DeliveryKind.live ≠ .ping := nofun
  cases t with
  | crash => exact absurd (Multiset.mem_cons_self _ _) hlost
  | abandon g hmem => exact absurd hmem hlost
  | note | roster | touch | discard => exact hbefore
  | count f hf =>
    simp only [Registry.count, settled_aside hf, reported_aside hf]
    exact hbefore
  | accept | take | join | quit =>
    simp only [Registry.put, tally_cons, unreported, zero_add] at hbefore ⊢
    exact hbefore
  | begin path b d who sink hx hwho hframe hw =>
    simp only [Registry.put, tally_cons, unreported, hw, reduceCtorEq, and_false, if_false]
      at hbefore ⊢
    exact hbefore
  | goOn path d d' hkind hframe hw =>
    simp only [tally_cons, unreported, hw] at hbefore ⊢
    exact hbefore
  | finish path d hw =>
    simp only [tally_cons, unreported, hw, and_true] at hbefore ⊢
    exact hbefore
  | rest =>
    -- the worker's own path is the live one
    simp only [tally_cons, unreported, hk.symm, if_false, zero_add] at hbefore
    exact hbefore
  | skip path kind b who position hkind =>
    obtain rfl : kind = path := (Multiset.forall_mem_cons.mp hs).1
    simp only [tally_cons, unreported, Registry.count, Registry.note, settled_staleSkip,
      reported_staleSkip] at hbefore ⊢
    omega
  | succeed path d who took hx hwho hw =>
    obtain rfl : d.kind = path := (Multiset.forall_mem_cons.mp hs).1
    simp only [tally_cons, unreported, Registry.count, Registry.put, settled_written,
      reported_written, hw, reduceCtorEq, and_false, if_false] at hbefore ⊢
    omega
  | fail path d d' who e took hw hkind hframe hw' =>
    obtain rfl : d.kind = path := (Multiset.forall_mem_cons.mp hs).1
    simp only [tally_cons, unreported, Registry.count, Registry.note, settled_failed,
      reported_failed, hw, hw', reduceCtorEq, and_false, and_true, if_false] at hbefore ⊢
    omega
  | reportLive n =>
    simp only [tally_replicate_add, unreported, Registry.count, settled_batchPublished,
      reported_batchPublished hlive, hk.symm, if_false] at hbefore ⊢
    omega
  | reportHistorical n =>
    simp only [tally_replicate_add, unreported, Registry.count, settled_batchPublished,
      reported_batchPublished hhistorical, mul_ite, mul_one, Nat.mul_zero] at hbefore ⊢
    omega
  | reportPings n =>
    simp only [tally_replicate_add, unreported, Registry.count, settled_pingPass,
      reported_pingPass, mul_ite, mul_one, Nat.mul_zero] at hbefore ⊢
    omega

theorem liveLaw (t : Transit a b) (hs : ∀ h ∈ a.hands, h.IsStraight) (hlost : .lost ∉ b.hands)
    (h : a.LiveLaw) : b.LiveLaw := by
  have hhistorical : DeliveryKind.historical ≠ .ping := nofun
  have hlive : DeliveryKind.live ≠ .ping := nofun
  unfold LiveLaw at h ⊢
  cases t with
  | crash => exact absurd (Multiset.mem_cons_self _ _) hlost
  | abandon g hmem => exact absurd hmem hlost
  | roster => exact h
  | note e he =>
    simp only [metrics_note, stock_note, Event.discards_of_aside he, add_zero]
    exact h
  | count f hf =>
    simp only [metrics_count, stock_count, settled_aside hf, reported_aside hf]
    exact h
  | @touch r H s x y hx hy =>
    have hstock := stock_put hx y []
    have hsize : y.queue.size = x.queue.size := by
      rw [← Queue.card_contents, ← Queue.card_contents, hy.pending]
    simp only [metrics_put, List.map_nil, List.sum_nil] at hstock h ⊢
    omega
  | @discard r H s x who hx =>
    have hstock := stock_put hx x.remove [.discarded who x.queue.heap.toList]
    have hempty : x.remove.queue.size = 0 := rfl
    have hdiscarded : ([.discarded who x.queue.heap.toList].map Event.discards).sum =
        x.queue.size := Array.length_toList
    simp only [metrics_put] at h ⊢
    omega
  | @accept r H s x who b hx hcancelled haccepts =>
    have hstock := stock_put hx (x.withHeap (x.queue.heap.push b)) [.enqueued who b]
    have hsize : (x.withHeap (x.queue.heap.push b)).queue.size = x.queue.size + 1 := by
      have hpushed : (x.withHeap (x.queue.heap.push b)).queue.heap.contents =
          b ::ₘ x.queue.heap.contents := Heap.contents_push _ _
      rw [← Queue.card_contents, ← Queue.card_contents, hpushed, Multiset.card_cons]
    have hdiscarded : ([.enqueued who b].map Event.discards).sum = 0 := rfl
    simp only [metrics_put, tally_cons, unsettled, unpublished] at h ⊢
    omega
  | @take r H s x b rest hx hb =>
    have hstock := stock_put hx (x.withHeap rest) []
    have hsize : x.queue.size = (x.withHeap rest).queue.size + 1 := by
      rw [← Queue.card_contents, ← Queue.card_contents, Heap.contents_of_pop? hb]
      exact Multiset.card_cons b _
    simp only [metrics_put, tally_cons, unsettled, unpublished, List.map_nil, List.sum_nil, if_true]
      at hstock h ⊢
    omega
  | join path b hx hpath =>
    simp only [tally_cons, unsettled, unpublished, hpath, if_false, zero_add]
    exact h
  | quit path kind b hpath =>
    simp only [tally_cons, unsettled, unpublished, hpath, if_false, zero_add] at h
    exact h
  | goOn path d d' hkind hframe hw =>
    simp only [tally_cons, unsettled, unpublished, hw] at h ⊢
    exact h
  | finish path d hw =>
    simp only [tally_cons, unsettled, unpublished, hw, reduceCtorEq, and_false, if_false] at h ⊢
    exact h
  | rest =>
    simp only [tally_cons, unsettled, unpublished, zero_add] at h
    exact h
  | @begin r H s x path b d who sink hx hwho hframe hw =>
    have hstock := stock_put hx { x with sink := sink }
      [.writeBegun who d.kind d.keepAlive d.frame]
    have hsize : ({ x with sink := sink } : Session).queue.size = x.queue.size := rfl
    have hdiscarded : ([.writeBegun who d.kind d.keepAlive d.frame].map Event.discards).sum = 0 :=
      rfl
    simp only [metrics_put, tally_cons, unsettled, unpublished, hw, and_true] at h ⊢
    omega
  | skip path kind b who position hkind =>
    obtain rfl : kind = path := (Multiset.forall_mem_cons.mp hs).1
    simp only [metrics_count, metrics_note, stock_count, stock_note, tally_cons, unsettled,
      unpublished, settled_staleSkip, reported_staleSkip, Event.discards] at h ⊢
    omega
  | @succeed r H s x path d who took hx hwho hw =>
    obtain rfl : d.kind = path := (Multiset.forall_mem_cons.mp hs).1
    have hstock := stock_put hx (x.served d) [.writeSucceeded who d.kind d.keepAlive d.frame]
    obtain ⟨cursor, lastSent, -, hserved⟩ := x.exists_served_eq d
    have hsize : (x.served d).queue.size = x.queue.size := by rw [hserved]
    have hdiscarded :
        ([.writeSucceeded who d.kind d.keepAlive d.frame].map Event.discards).sum = 0 := rfl
    simp only [metrics_count, metrics_put, stock_count, tally_cons, unsettled, unpublished,
      settled_written, reported_written, hw, and_true] at h ⊢
    omega
  | fail path d d' who e took hw hkind hframe hw' =>
    obtain rfl : d.kind = path := (Multiset.forall_mem_cons.mp hs).1
    simp only [metrics_count, metrics_note, stock_count, stock_note, tally_cons, unsettled,
      unpublished, settled_failed, reported_failed, hw, hw', reduceCtorEq, and_true, and_false,
      if_false, Event.discards] at h ⊢
    omega
  | reportLive n =>
    simp only [metrics_count, stock_count, tally_replicate_add, unsettled, unpublished,
      settled_batchPublished, reported_batchPublished hlive, if_true, Nat.mul_zero, Nat.mul_one]
      at h ⊢
    omega
  | reportHistorical n =>
    simp only [metrics_count, stock_count, tally_replicate_add, unsettled, unpublished,
      settled_batchPublished, reported_batchPublished hhistorical, reduceCtorEq, if_false,
      Nat.mul_zero] at h ⊢
    omega
  | reportPings n =>
    simp only [metrics_count, stock_count, tally_replicate_add, unsettled, unpublished,
      settled_pingPass, reported_pingPass, reduceCtorEq, if_false, Nat.mul_zero] at h ⊢
    omega

end Transit

namespace Traffic.Conserved

variable {a b : Traffic}

theorem transit (h : a.Conserved) (t : Transit a b) : b.Conserved where
  straight := t.straight h.straight
  tallied := t.tallied h.tallied
  laws hlost := by
    have hbefore : .lost ∉ a.hands := fun hmem => hlost (t.lost_mem hmem)
    obtain ⟨hdirect, hlive⟩ := h.laws hbefore
    exact ⟨t.directLaw h.straight hlost hdirect, t.liveLaw h.straight hlost hlive⟩

theorem transfer (h : a.Conserved) (t : Transfer a b) : b.Conserved := by
  cases t with
  | transit t => exact h.transit t
  | beside => exact ⟨h.straight, h.tallied, h.laws⟩
  | @work r H s x w hx =>
    have hwrites : (r.put s { x with worker := w } []).writesCount = r.writesCount := by
      apply writesCount_put hx
      rfl
    have hstock : (r.put s { x with worker := w } []).stock = r.stock := by
      have hput := stock_put hx { x with worker := w } []
      exact Nat.add_right_cancel hput
    refine ⟨h.straight, ?_, ?_⟩
    · rw [hwrites]
      exact h.tallied
    · intro hlost
      obtain ⟨hdirect, hlive⟩ := h.laws hlost
      refine ⟨hdirect, ?_⟩
      unfold LiveLaw at hlive ⊢
      rw [hstock]
      exact hlive
  | @enrol r H request =>
    have haside : Metrics.Aside (·.setSessions (r.members ++ [r.sessions.length]).length) :=
      fun _ => ⟨rfl, fun _ _ => rfl⟩
    have hmetrics : (r.enrol request).1.metrics =
        r.metrics.setSessions (r.members ++ [r.sessions.length]).length := rfl
    have hsessions : (r.enrol request).1.sessions =
        r.sessions ++ [.ofSubscription request r.config.queueCapacity] := rfl
    -- whoever is new has written nothing, and nothing is pending for it
    have hwrites : (r.enrol request).1.writesCount = r.writesCount := by
      rw [writesCount, hsessions, List.map_append, List.sum_append]
      rfl
    have hpending : (r.enrol request).1.pendingCount = r.pendingCount := by
      rw [pendingCount, hsessions, List.map_append, List.sum_append]
      rfl
    have hdiscarded : (r.enrol request).1.discardedCount = r.discardedCount :=
      (List.sum_cons).trans (zero_add _)
    refine ⟨h.straight, ?_, ?_⟩
    · dsimp only
      rw [hwrites, hmetrics]
      exact Tallied.aside h.tallied haside
    · intro hlost
      obtain ⟨hdirect, hlive⟩ := h.laws hlost
      refine ⟨hdirect, ?_⟩
      unfold LiveLaw stock at hlive ⊢
      dsimp only
      rw [hpending, hdiscarded]
      exact hlive

theorem transfers (h : a.Conserved) (t : Transfers a b) : b.Conserved := by
  induction t with
  | refl => exact h
  | tail _ hstep ih => exact ih.transfer hstep

/-- With nothing in hand the counters of each path agree. -/
theorem balance {r : Registry} (h : Conserved ⟨r, 0⟩) :
    r.metrics.value (.routed .historical) = r.metrics.settled .historical ∧
      r.metrics.value .pingsSent = r.metrics.settled .ping ∧
      r.metrics.value (.routed .live) = r.metrics.settled .live + r.stock := by
  obtain ⟨hdirect, hlive⟩ := h.laws (Multiset.notMem_zero _)
  have hhistorical := hdirect .historical DeliveryKind.noConfusion
  have hping := hdirect .ping DeliveryKind.noConfusion
  unfold LiveLaw at hlive
  simp only [tally_zero, reported, Nat.add_zero] at hhistorical hping hlive
  exact ⟨hhistorical.symm, hping.symm, hlive.symm⟩

end Traffic.Conserved

/-! ### Every run -/

/-- Whether a call publishes past the queues or pings, and has not come to its end. -/
def Call.isDelivering : Call → Bool
  | .backfilling _ | .sending _ | .pinging _ => true
  | .pingLoop l => l.pass.isSome
  | _ => false

def Call.hasCrashed : Call → Bool
  | .crashed => true
  | _ => false

def WorkerPoint.isDelivering : WorkerPoint Delivery → Bool
  | .delivering _ => true
  | _ => false

def WorkerPoint.hasCrashed : WorkerPoint Delivery → Bool
  | .crashed => true
  | _ => false

namespace Registry

/-- No delivery is in flight, and no call to publish, send or ping is pending. -/
structure Quiet (r : Registry) : Prop where
  calls : ∀ c ∈ r.calls, c.isDelivering = false
  workers : ∀ x ∈ r.sessions, x.worker.isDelivering = false

/-- Nothing has crashed. Whatever crashes stays so. -/
structure Unharmed (r : Registry) : Prop where
  calls : ∀ c ∈ r.calls, c.hasCrashed = false
  workers : ∀ x ∈ r.sessions, x.worker.hasCrashed = false

/-- The number of batches that are pending in open queues. -/
def openCount (r : Registry) : Nat :=
  ((r.sessions.filter fun x => !x.queue.closed).map fun x => x.queue.size).sum

variable {r : Registry} {config : Config} {hooks : Hooks} {T : Terms}

theorem hands_of_quiet (hq : r.Quiet) (hu : r.Unharmed) : r.hands = 0 := by
  have hcalls : (r.calls.map Call.hands).sum = 0 := by
    apply List.sum_eq_zero
    intro G hG
    obtain ⟨c, hc, rfl⟩ := List.mem_map.mp hG
    have hquiet := hq.calls c hc
    have hwhole := hu.calls c hc
    cases c with
    | backfilling | sending | pinging => cases hquiet
    | crashed => cases hwhole
    | pingLoop l =>
      have hnone : l.pass.isNone = true := Option.isSome_eq_false_iff.mp hquiet
      exact hands_pingLoop_of_idle (Option.isNone_iff_eq_none.mp hnone)
    | _ => rfl
  have hworkers : r.workerHands.sum = 0 := by
    apply List.sum_eq_zero
    intro G hG
    obtain ⟨s, hs, rfl⟩ := List.mem_mapIdx.mp hG
    have hquiet := hq.workers _ (List.getElem_mem hs)
    have hwhole := hu.workers _ (List.getElem_mem hs)
    cases hw : r.sessions[s].worker with
    | delivering d =>
      rw [hw] at hquiet
      cases hquiet
    | crashed =>
      rw [hw] at hwhole
      cases hwhole
    | _ => rfl
  rw [hands, hcalls, hworkers, add_zero]

/-- A closed queue has nothing pending. -/
theorem openCount_eq (hr : Settled T r) : r.openCount = r.pendingCount := by
  have hempty : ∀ x ∈ r.sessions, x.queue.closed = true → x.queue.size = 0 := by
    intro x hx hclosed
    obtain ⟨s, hs⟩ := List.getElem?_of_mem hx
    exact Queue.size_of_empty ((hr.sound.lawful s x hs).emptied hclosed)
  unfold openCount pendingCount
  generalize r.sessions = xs at hempty
  induction xs with
  | nil => rfl
  | cons x rest ih =>
    have hrest := ih fun y hy => hempty y (List.mem_cons_of_mem x hy)
    have hfirst := hempty x List.mem_cons_self
    rw [List.filter_cons]
    cases hc : x.queue.closed with
    | true =>
      simp only [Bool.not_true, Bool.false_eq_true, if_false, List.map_cons, List.sum_cons]
      have hzero := hfirst hc
      omega
    | false =>
      simp only [Bool.not_false, if_true, List.map_cons, List.sum_cons]
      omega

theorem conserved_new (config : Config) (hooks : Hooks) :
    Traffic.Conserved ⟨new config hooks, 0⟩ := by
  obtain ⟨es, hes, hnew⟩ := exists_new_eq config hooks
  have hdiscarded : (new config hooks).discardedCount = 0 := by
    rw [hnew]
    apply List.sum_eq_zero
    intro n hn
    obtain ⟨e, he, rfl⟩ := List.mem_map.mp hn
    have hopening := hes e he
    cases e with
    | periodRaised | started => rfl
    | _ => exact hopening.elim
  have hwrites : (new config hooks).writesCount = 0 := by
    rw [writesCount, (new_blank config hooks).1]
    rfl
  have hpending : (new config hooks).pendingCount = 0 := by
    rw [pendingCount, (new_blank config hooks).1]
    rfl
  have hmetrics : (new config hooks).metrics = {} := (new_blank config hooks).2.2
  refine ⟨?_, ?_, ?_⟩
  · intro g hg
    exact absurd hg (Multiset.notMem_zero g)
  · rw [hwrites, hmetrics]
    exact ⟨rfl, fun _ => rfl, rfl⟩
  · intro _
    refine ⟨?_, ?_⟩
    · intro k hk
      rw [hmetrics]
      cases k with
      | live | historical | ping => rfl
    · unfold LiveLaw stock
      dsimp only
      rw [hpending, hdiscarded, hmetrics]
      rfl

/-- What is counted adds up in every run. For each path the lengths of as many writes are kept as
have succeeded or failed, the subscribers have been written to as often as deliveries were counted,
and no ping is stale. Whenever no delivery is in flight and nothing has crashed, all that was
reported on a path has been delivered, skipped or failed; a live batch may be pending instead, or
was discarded when its queue closed. -/
theorem metrics_conserved (config : Config) (hooks : Hooks) (actions : List Action) :
    let r := (new config hooks).run actions
    let m := r.metrics
    m.value (.staleSkips .ping) = 0 ∧
      (∀ k, m.writeCount k = m.value (.delivered k) + m.value (.sinkFailures k)) ∧
      (r.sessions.map Session.writes).sum =
        m.value (.delivered .live) + m.value (.delivered .historical) + m.value (.delivered .ping) ∧
      (r.Quiet → r.Unharmed →
        m.value (.routed .historical) = m.value (.delivered .historical) +
          m.value (.staleSkips .historical) + m.value (.sinkFailures .historical) ∧
        m.value .pingsSent = m.value (.delivered .ping) + m.value (.sinkFailures .ping) ∧
        m.value (.routed .live) = m.value (.delivered .live) + m.value (.staleSkips .live) +
          m.value (.sinkFailures .live) + r.openCount + r.discardedCount) := by
  intro r m
  have hr : Settled (.any config hooks True) r :=
    settled_run rfl rfl fun action _ => action.keeps_any
  have hconserved := (conserved_new config hooks).transfers (handsOver_new_run config hooks actions)
  obtain ⟨hpings, htimed, hwritten⟩ := hconserved.tallied
  refine ⟨hpings, htimed, hwritten, ?_⟩
  intro hq hu
  have hnone : r.hands = 0 := hands_of_quiet hq hu
  rw [hnone] at hconserved
  obtain ⟨hhistorical, hping, hlive⟩ := hconserved.balance
  refine ⟨hhistorical, ?_, ?_⟩
  · calc m.value .pingsSent
        = m.value (.delivered .ping) + m.value (.staleSkips .ping) + m.value (.sinkFailures .ping) :=
          hping
      _ = m.value (.delivered .ping) + m.value (.sinkFailures .ping) := by
          rw [hpings, Nat.add_zero]
  · calc m.value (.routed .live)
        = m.settled .live + (r.pendingCount + r.discardedCount) := hlive
      _ = m.settled .live + r.openCount + r.discardedCount := by
          rw [openCount_eq hr, Nat.add_assoc]

/-- A live batch goes to one subscriber; another is removed with the batch pending when a ping to it
fails. A backfill is stale for the first and written to the second. -/
theorem metrics_conserved_of_failed_ping :
    let r := (new {} {}).run ([
      .subscribe {}, .run (.call 1),
      .subscribe { sink := .scripted [.ok, .fail .closed] }, .run (.call 2), .activate 0,
      .publishLive ⟨[⟨7, ""⟩]⟩] ++ List.replicate 6 (.run (.worker 0)) ++
      [.publishHistorical ⟨[⟨5, ""⟩]⟩] ++ List.replicate 4 (.run (.call 3)) ++
      [.ping] ++ List.replicate 5 (.run (.call 4)))
    r.Quiet ∧ r.Unharmed ∧ r.openCount = 0 ∧ r.discardedCount = 1 ∧
      r.metrics.value (.routed .live) = 2 ∧ r.metrics.value (.delivered .live) = 1 ∧
      r.metrics.value (.routed .historical) = 2 ∧ r.metrics.value (.staleSkips .historical) = 1 ∧
      r.metrics.value .pingsSent = 2 ∧
      r.metrics.value .pingsSent =
        r.metrics.value (.delivered .ping) + r.metrics.value (.sinkFailures .ping) := by
  intro r
  have hq : r.Quiet := ⟨by decide +kernel, by decide +kernel⟩
  have hu : r.Unharmed := ⟨by decide +kernel, by decide +kernel⟩
  refine ⟨hq, hu, by decide +kernel, by decide +kernel, by decide +kernel, by decide +kernel,
    by decide +kernel, by decide +kernel, by decide +kernel, ?_⟩
  exact ((metrics_conserved {} {} _).2.2.2 hq hu).2.1

end Registry

end Multicast
