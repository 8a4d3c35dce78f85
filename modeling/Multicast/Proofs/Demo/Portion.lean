import Multicast.Proofs.Demo.Announced
import Multicast.Proofs.Registry.Backlog

/-! What becomes of the live numbers that are for one subscriber. Each one that is announced is
pending until the worker takes it, the least first; then its write begins, or it is skipped because
the cursor has gone past it. -/

namespace Multicast

namespace Demo

/-- How the numbers that were announced for a subscriber are divided. -/
structure Portion where
  /-- Those whose writes have begun, in order. -/
  begun : List Nat := []
  pending : Multiset Nat := 0
  /-- Those that were skipped, the latest first. -/
  skipped : List Nat := []

namespace Portion

/-- Where the cursor stands when the writes that have begun are over; it was at `start` before. -/
def reach (p : Portion) (start : Nat) : Nat := p.begun.getLastD start

/-- A number more is pending. -/
def announce (p : Portion) (m : Nat) : Portion := { p with pending := m ::ₘ p.pending }

/-- What the worker does with the numbers. -/
inductive Move (policy : StalePolicy) (start : Nat) : Portion → Portion → Prop
  | still (p : Portion) : Move policy start p p
  | begin (p : Portion) {m : Nat} (hleast : ∀ j ∈ p.pending, m ≤ j)
      (hpasses : policy.Follows (p.reach start) m) :
      Move policy start (p.announce m) { p with begun := p.begun ++ [m] }
  | skip (p : Portion) {m : Nat} (hstale : ¬ policy.Follows (p.reach start) m) :
      Move policy start (p.announce m) { p with skipped := m :: p.skipped }

/-- The numbers are dealt with fairly that were announced, all after `start`: each is pending, or is
begun or skipped in its turn, and none is passed over that is not begun. -/
structure Fair (policy : StalePolicy) (start : Nat) (announced : List Nat) (p : Portion) :
    Prop where
  after : ∀ s ∈ announced, start < s
  balance : (p.begun : Multiset Nat) + p.pending + p.skipped = announced
  sorted : p.begun.Pairwise policy.Follows
  cover : ∀ s ∈ announced, s ∈ p.begun ∨ s ∈ p.pending ∧ p.reach start ≤ s

/-- No number is begun twice, or will be. -/
structure Single (start : Nat) (p : Portion) : Prop where
  increasing : p.begun.Pairwise (· < ·)
  once : ∀ s ∈ p.pending, p.reach start ≤ s → p.reach start < s ∧ p.pending.count s = 1

variable {policy : StalePolicy} {start m s : Nat} {announced : List Nat} {p q : Portion}

@[simp] theorem pending_announce (p : Portion) (m : Nat) :
    (p.announce m).pending = m ::ₘ p.pending := rfl

@[simp] theorem begun_announce (p : Portion) (m : Nat) : (p.announce m).begun = p.begun := rfl

@[simp] theorem reach_announce (p : Portion) (m start : Nat) :
    (p.announce m).reach start = p.reach start := rfl

@[simp] theorem reach_concat (p : Portion) (m start : Nat) :
    ({ p with begun := p.begun ++ [m] } : Portion).reach start = m := List.getLastD_concat

theorem reach_eq_or_mem (p : Portion) (start : Nat) :
    p.reach start = start ∨ p.reach start ∈ p.begun := by
  rcases List.eq_nil_or_concat p.begun with hnil | ⟨numbers, m, hconcat⟩
  · exact .inl (by rw [reach, hnil]; rfl)
  · right
    rw [reach, hconcat, List.concat_eq_append, List.getLastD_concat]
    exact List.mem_append_right _ (List.mem_singleton_self m)

namespace Fair

theorem mem_announced (h : p.Fair policy start announced) (hs : s ∈ p.begun ∨ s ∈ p.pending) :
    s ∈ announced := by
  rw [← Multiset.mem_coe, ← h.balance]
  rcases hs with hs | hs
  · exact Multiset.mem_add.mpr (.inl (Multiset.mem_add.mpr (.inl hs)))
  · exact Multiset.mem_add.mpr (.inl (Multiset.mem_add.mpr (.inr hs)))

/-- Nothing that has begun lies behind the last of it. -/
theorem le_reach (h : p.Fair policy start announced) (hs : s ∈ p.begun) : s ≤ p.reach start := by
  have hsorted := h.sorted
  rcases List.eq_nil_or_concat p.begun with hnil | ⟨numbers, m, hconcat⟩
  · rw [hnil] at hs
    cases hs
  · rw [List.concat_eq_append] at hconcat
    rw [hconcat] at hs hsorted
    rw [reach, hconcat, List.getLastD_concat]
    rcases List.mem_append.mp hs with hs | hs
    · exact ((List.pairwise_append.mp hsorted).2.2 s hs m (List.mem_singleton_self m)).le
    · exact (List.mem_singleton.mp hs).le

theorem empty (policy : StalePolicy) (start : Nat) : ({} : Portion).Fair policy start [] :=
  ⟨nofun, rfl, .nil, nofun⟩

/-- A number is announced that is newer than all before it, or that was announced before. -/
theorem announce (h : p.Fair policy start announced) (hm : start < m)
    (hnew : (∀ s ∈ announced, s ≤ m) ∨ m ∈ announced) :
    (p.announce m).Fair policy start (announced ++ [m]) where
  after s hs := (List.mem_append.mp hs).elim (h.after s)
    fun hs => (List.mem_singleton.mp hs).symm ▸ hm
  balance := by
    rw [← Multiset.coe_add, ← h.balance, Multiset.coe_singleton, add_comm _ ({m} : Multiset Nat),
      Multiset.singleton_add, begun_announce, pending_announce, Multiset.add_cons,
      Multiset.cons_add]
    rfl
  sorted := h.sorted
  cover s hs := by
    rcases List.mem_append.mp hs with hs | hs
    · exact (h.cover s hs).imp_right fun hpending => hpending.imp_left Multiset.mem_cons_of_mem
    · obtain rfl := List.mem_singleton.mp hs
      rcases hnew with hnew | hold
      · right
        refine ⟨Multiset.mem_cons_self s _, ?_⟩
        rcases p.reach_eq_or_mem start with heq | hmem
        · exact heq.le.trans hm.le
        · exact hnew _ (h.mem_announced (.inl hmem))
      · exact (h.cover s hold).imp_right fun hpending => hpending.imp_left Multiset.mem_cons_of_mem

/-- What the worker does is fair. -/
theorem move (h : p.Fair policy start announced) (hmove : Move policy start p q) :
    q.Fair policy start announced := by
  cases hmove with
  | still => exact h
  | @begin p m hleast hpasses =>
    refine ⟨h.after, ?_, ?_, ?_⟩
    · rw [← h.balance, begun_announce, pending_announce, ← Multiset.coe_add, Multiset.coe_singleton,
        add_comm (p.begun : Multiset Nat), Multiset.singleton_add, Multiset.cons_add,
        Multiset.add_cons]
      rfl
    · refine List.pairwise_append.mpr ⟨h.sorted, List.pairwise_singleton _ _, fun s hs m' hm' => ?_⟩
      obtain rfl := List.mem_singleton.mp hm'
      exact hpasses.of_le (h.le_reach hs)
    · intro s hs
      rw [reach_concat]
      rcases h.cover s hs with hbegun | ⟨hpending, -⟩
      · exact .inl (List.mem_append_left _ hbegun)
      · rcases Multiset.mem_cons.mp hpending with rfl | hpending
        · exact .inl (List.mem_append_right _ (List.mem_singleton_self s))
        · exact .inr ⟨hpending, hleast s hpending⟩
  | @skip p m hstale =>
    refine ⟨h.after, ?_, h.sorted, ?_⟩
    · rw [← h.balance, begun_announce, pending_announce, ← Multiset.cons_coe, Multiset.add_cons,
        Multiset.add_cons, Multiset.cons_add]
      rfl
    · intro s hs
      rcases h.cover s hs with hbegun | ⟨hpending, hreach⟩
      · exact .inl hbegun
      · rcases Multiset.mem_cons.mp hpending with rfl | hpending
        · -- a number that is stale and not below the cursor is the one at which the cursor stands
          have heq : p.reach start = s := le_antisymm hreach (StalePolicy.le_of_not_follows hstale)
          rcases p.reach_eq_or_mem start with hstart | hmem
          · exact absurd (h.after s hs) (by rw [← heq, hstart]; exact lt_irrefl start)
          · exact .inl (heq ▸ hmem)
        · exact .inr ⟨hpending, hreach⟩

/-- When nothing is pending, all that was announced has begun. -/
theorem mem_begun_iff (h : p.Fair policy start announced) (hnone : p.pending = 0) :
    s ∈ p.begun ↔ s ∈ announced := by
  refine ⟨fun hs => h.mem_announced (.inl hs), fun hs => ?_⟩
  rcases h.cover s hs with hbegun | ⟨hpending, -⟩
  · exact hbegun
  · rw [hnone] at hpending
    exact absurd hpending (Multiset.notMem_zero s)

theorem sorted_le (h : p.Fair policy start announced) : p.begun.Pairwise (· ≤ ·) :=
  h.sorted.imp fun hfollows => hfollows.le

end Fair

namespace Single

theorem empty (start : Nat) : ({} : Portion).Single start := ⟨.nil, nofun⟩

/-- A number is announced that is below the cursor, or above it and not pending. -/
theorem announce (h : p.Single start)
    (hm : m < p.reach start ∨ p.reach start < m ∧ m ∉ p.pending) : (p.announce m).Single start := by
  refine ⟨h.increasing, fun s hs hreach => ?_⟩
  rw [reach_announce] at hreach ⊢
  by_cases hsm : s = m
  · subst hsm
    obtain ⟨habove, hnew⟩ := hm.resolve_left (Nat.not_lt.mpr hreach)
    rw [pending_announce, Multiset.count_cons_self, Multiset.count_eq_zero_of_notMem hnew]
    exact ⟨habove, rfl⟩
  · rw [pending_announce, Multiset.count_cons_of_ne hsm]
    exact h.once s ((Multiset.mem_cons.mp hs).resolve_left hsm) hreach

theorem move (h : p.Single start) (hfair : p.Fair policy start announced)
    (hmove : Move policy start p q) : q.Single start := by
  cases hmove with
  | still => exact h
  | @begin p m hleast hpasses =>
    obtain ⟨habove, hcount⟩ := h.once m (Multiset.mem_cons_self m _) hpasses.le
    rw [reach_announce] at habove
    rw [pending_announce, Multiset.count_cons_self] at hcount
    refine ⟨?_, fun s hs hreach => ?_⟩
    · refine List.pairwise_append.mpr ⟨h.increasing, List.pairwise_singleton _ _, ?_⟩
      intro s hs m' hm'
      obtain rfl := List.mem_singleton.mp hm'
      exact lt_of_le_of_lt (hfair.le_reach hs) habove
    · -- the number itself is not pending any more
      rw [reach_concat] at hreach ⊢
      have hne : s ≠ m := by
        rintro rfl
        exact Multiset.count_eq_zero.mp (Nat.succ.inj hcount) hs
      have hrest := (h.once s (Multiset.mem_cons_of_mem hs) (habove.le.trans hreach)).2
      rw [pending_announce, Multiset.count_cons_of_ne hne] at hrest
      exact ⟨lt_of_le_of_ne hreach hne.symm, hrest⟩
  | @skip p m hstale =>
    refine ⟨h.increasing, fun s hs hreach => ?_⟩
    obtain ⟨habove, hcount⟩ := h.once s (Multiset.mem_cons_of_mem hs) hreach
    have hne : s ≠ m := by
      rintro rfl
      exact absurd (StalePolicy.le_of_not_follows hstale) (Nat.not_le.mpr habove)
    rw [pending_announce, Multiset.count_cons_of_ne hne] at hcount
    exact ⟨habove, hcount⟩

end Single

/-! ### When nothing is pending -/

namespace Fair

variable {numbers again : List Nat}

/-- What has begun without repetitions is all that was announced, each number once. -/
theorem begun_eq (h : p.Fair policy start announced) (hnone : p.pending = 0)
    (hbegun : p.begun.Pairwise (· < ·)) (hnumbers : numbers.Pairwise (· < ·))
    (hmem : ∀ s, s ∈ numbers ↔ s ∈ announced) : p.begun = numbers := by
  have hsame (s : Nat) : s ∈ p.begun ↔ s ∈ numbers := by rw [h.mem_begun_iff hnone, hmem]
  have hperm : p.begun.Perm numbers :=
    (List.perm_ext_iff_of_nodup (hbegun.imp ne_of_lt) (hnumbers.imp ne_of_lt)).mpr hsame
  exact hperm.eq_of_pairwise (fun a b _ _ hab hba => absurd hab (Nat.lt_asymm hba)) hbegun hnumbers

/-- What was announced and has not begun was skipped. -/
theorem skipped_perm (h : p.Fair policy start announced) (hnone : p.pending = 0)
    (hperm : announced.Perm (p.begun ++ again)) : p.skipped.Perm again := by
  have hbalance := h.balance
  rw [hnone, add_zero, Multiset.coe_eq_coe.mpr hperm, ← Multiset.coe_add] at hbalance
  exact Multiset.coe_eq_coe.mp (add_left_cancel hbalance)

end Fair

end Portion

end Demo

end Multicast
