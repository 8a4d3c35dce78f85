import Multicast.Proofs.Traffic.Hand

/-! What each thing that is counted does to the counters of batches on their way. On each path there
are two views of these: how many deliveries have come to their end, and how many batches were
reported. -/

namespace Multicast

namespace Metrics

variable {m : Metrics} {j k : DeliveryKind} {n : Nat} {f : Metrics → Metrics}

/-- The deliveries on a path that have come to their end. -/
def settled (m : Metrics) (k : DeliveryKind) : Nat :=
  m.value (.delivered k) + m.value (.staleSkips k) + m.value (.sinkFailures k)

/-- The batches reported on a path; pings have a counter of their own. -/
def reported (m : Metrics) : DeliveryKind → Nat
  | .ping => m.value .pingsSent
  | k => m.value (.routed k)

@[simp] theorem value_writeTook (c : Counter) (took : Duration) :
    (m.writeTook j took).value c = m.value c := rfl

theorem settled_aside (hf : Aside f) : (f m).settled k = m.settled k := by
  have hdelivered := (hf m).2 (.delivered k) trivial
  have hstale := (hf m).2 (.staleSkips k) trivial
  have hfailed := (hf m).2 (.sinkFailures k) trivial
  rw [settled, hdelivered, hstale, hfailed, settled]

theorem reported_aside (hf : Aside f) : (f m).reported k = m.reported k := by
  cases k with
  | live | historical | ping => exact (hf m).2 _ trivial

theorem settled_staleSkip : (m.staleSkip j).settled k = m.settled k + if j = k then 1 else 0 := by
  simp only [settled, staleSkip, value_add, reduceCtorEq, Counter.staleSkips.injEq, if_false]
  split
  · rename_i hjk
    subst hjk
    omega
  · rfl

theorem settled_written (took : Duration) :
    ((m.writeTook j took).batchDelivered j).settled k = m.settled k + if j = k then 1 else 0 := by
  simp only [settled, batchDelivered, value_add, value_writeTook, reduceCtorEq,
    Counter.delivered.injEq, if_false]
  split
  · rename_i hjk
    subst hjk
    omega
  · rfl

theorem settled_failed (took : Duration) :
    ((m.writeTook j took).sinkFailure j).settled k = m.settled k + if j = k then 1 else 0 := by
  simp only [settled, sinkFailure, value_add, value_writeTook, reduceCtorEq,
    Counter.sinkFailures.injEq, if_false]
  split
  · rename_i hjk
    subst hjk
    omega
  · rfl

theorem settled_batchPublished : (m.batchPublished j n).settled k = m.settled k := by
  simp only [settled, batchPublished, value_add, reduceCtorEq, if_false]

theorem settled_pingPass : (m.pingPass n).settled k = m.settled k := by
  simp only [settled, pingPass, value_add, reduceCtorEq, if_false]

/-- Only reports count as reports. -/
theorem reported_staleSkip : (m.staleSkip j).reported k = m.reported k := by
  cases k <;> simp only [reported, staleSkip, value_add, reduceCtorEq, if_false]

theorem reported_written (took : Duration) :
    ((m.writeTook j took).batchDelivered j).reported k = m.reported k := by
  cases k <;> simp only [reported, batchDelivered, value_add, value_writeTook, reduceCtorEq, if_false]

theorem reported_failed (took : Duration) :
    ((m.writeTook j took).sinkFailure j).reported k = m.reported k := by
  cases k <;> simp only [reported, sinkFailure, value_add, value_writeTook, reduceCtorEq, if_false]

theorem reported_batchPublished (hj : j ≠ .ping) :
    (m.batchPublished j n).reported k = m.reported k + if j = k then n else 0 := by
  cases k with
  | ping => simp only [reported, batchPublished, value_add, reduceCtorEq, if_false, hj, add_zero]
  | live | historical =>
    simp only [reported, batchPublished, value_add, reduceCtorEq, Counter.routed.injEq, if_false]
    split
    · rename_i hjk
      rw [hjk]
    · rfl

theorem reported_pingPass :
    (m.pingPass n).reported k = m.reported k + if .ping = k then n else 0 := by
  cases k <;> simp [reported, pingPass, value_add]

/-! ### Writes -/

/-- What the counters and the lengths of the writes tell of `writes` writes that have succeeded; no
ping is stale. -/
structure Tallied (m : Metrics) (writes : Nat) : Prop where
  pings : m.value (.staleSkips .ping) = 0
  timed : ∀ k, m.writeCount k = m.value (.delivered k) + m.value (.sinkFailures k)
  written : writes =
    m.value (.delivered .live) + m.value (.delivered .historical) + m.value (.delivered .ping)

variable {writes : Nat}

theorem writeCount_writeTook (took : Duration) :
    (m.writeTook j took).writeCount k = m.writeCount k + if j = k then 1 else 0 := by
  simp only [writeCount, writeTook, List.filter_cons, decide_eq_true_eq]
  split <;> rfl

/-- A change that concerns none of the counters in question. -/
theorem Tallied.congr {m' : Metrics} (h : m.Tallied writes) (hw : m'.writes = m.writes)
    (hd : ∀ k, m'.value (.delivered k) = m.value (.delivered k))
    (hf : ∀ k, m'.value (.sinkFailures k) = m.value (.sinkFailures k))
    (hp : m'.value (.staleSkips .ping) = m.value (.staleSkips .ping)) : m'.Tallied writes where
  pings := hp.trans h.pings
  timed k := by
    have hcount : m'.writeCount k = m.writeCount k := by rw [writeCount, hw, writeCount]
    rw [hcount, hd, hf]
    exact h.timed k
  written := by
    rw [hd, hd, hd]
    exact h.written

theorem Tallied.aside (h : m.Tallied writes) (hf : Aside f) : (f m).Tallied writes :=
  h.congr (hf m).1 (fun _ => (hf m).2 _ trivial) (fun _ => (hf m).2 _ trivial) ((hf m).2 _ trivial)

theorem Tallied.staleSkip (h : m.Tallied writes) (hj : j ≠ .ping) :
    (m.staleSkip j).Tallied writes := by
  refine h.congr rfl (fun k => ?_) (fun k => ?_) ?_
  · simp only [Metrics.staleSkip, value_add, reduceCtorEq, if_false]
  · simp only [Metrics.staleSkip, value_add, reduceCtorEq, if_false]
  · simp only [Metrics.staleSkip, value_add, Counter.staleSkips.injEq, hj, if_false]

theorem Tallied.batchPublished (h : m.Tallied writes) : (m.batchPublished j n).Tallied writes := by
  refine h.congr rfl (fun k => ?_) (fun k => ?_) ?_ <;>
    simp only [Metrics.batchPublished, value_add, reduceCtorEq, if_false]

theorem Tallied.pingPass (h : m.Tallied writes) : (m.pingPass n).Tallied writes := by
  refine h.congr rfl (fun k => ?_) (fun k => ?_) ?_ <;>
    simp only [Metrics.pingPass, value_add, reduceCtorEq, if_false]

theorem Tallied.succeed (h : m.Tallied writes) (took : Duration) :
    ((m.writeTook j took).batchDelivered j).Tallied (writes + 1) where
  pings := by
    simp only [batchDelivered, value_add, reduceCtorEq, if_false, value_writeTook]
    exact h.pings
  timed k := by
    have hcount : ((m.writeTook j took).batchDelivered j).writeCount k =
        (m.writeTook j took).writeCount k := rfl
    have hbefore := h.timed k
    rw [hcount, writeCount_writeTook]
    simp only [batchDelivered, value_add, value_writeTook, reduceCtorEq, if_false,
      Counter.delivered.injEq]
    split
    · rename_i hjk
      subst hjk
      omega
    · exact hbefore
  written := by
    have hbefore := h.written
    simp only [batchDelivered, value_add, value_writeTook, Counter.delivered.injEq]
    cases j <;> simp only [reduceCtorEq, if_true, if_false] <;> omega

theorem Tallied.fail (h : m.Tallied writes) (took : Duration) :
    ((m.writeTook j took).sinkFailure j).Tallied writes where
  pings := by
    simp only [sinkFailure, value_add, reduceCtorEq, if_false, value_writeTook]
    exact h.pings
  timed k := by
    have hcount : ((m.writeTook j took).sinkFailure j).writeCount k =
        (m.writeTook j took).writeCount k := rfl
    have hbefore := h.timed k
    rw [hcount, writeCount_writeTook]
    simp only [sinkFailure, value_add, value_writeTook, reduceCtorEq, if_false,
      Counter.sinkFailures.injEq]
    split
    · rename_i hjk
      subst hjk
      omega
    · exact hbefore
  written := by
    simp only [sinkFailure, value_add, value_writeTook, reduceCtorEq, if_false]
    exact h.written

end Metrics

end Multicast
