import Mathlib.Data.List.Infix
import Multicast.Proofs.Heap.LeastFirst

/-! The room of a heap. A heap doubles its capacity when it is full and gets one batch more, and
gives back what it had grown when its last batch leaves; so the capacity is the first of base, twice
the base, four times the base and so on that holds the largest size since the heap was last empty.
-/

namespace Multicast

namespace Heap

/-- The largest size since a heap was last empty, given the sizes it has had, the latest first. -/
def largest (ns : List Nat) : Nat := (ns.takeWhile (0 < ·)).foldr max 0

/-- Whether a capacity is the first doubling of the base that holds `n` batches. -/
def FirstToHold (base n capacity : Nat) : Prop :=
  ∃ k, capacity = base * 2 ^ k ∧ n ≤ capacity ∧ ∀ j < k, base * 2 ^ j < n

variable {base n m capacity : Nat} {ns : List Nat}

/-! ### Doublings -/

@[simp] theorem largest_zero_cons : largest (0 :: ns) = 0 := rfl

theorem largest_cons (hn : 0 < n) : largest (n :: ns) = max n (largest ns) := by
  have hpos : decide (0 < n) = true := decide_eq_true hn
  simp only [largest, List.takeWhile_cons, hpos, if_true, List.foldr_cons]

theorem firstToHold_base (h : n ≤ base) : FirstToHold base n base := by
  refine ⟨0, ?_, h, nofun⟩
  rw [pow_zero, Nat.mul_one]

/-- The doubling stays the first one as long as it has room. -/
theorem FirstToHold.mono (h : FirstToHold base n capacity) (hnm : n ≤ m) (hm : m ≤ capacity) :
    FirstToHold base m capacity := by
  obtain ⟨k, hk, -, hbelow⟩ := h
  exact ⟨k, hk, hm, fun j hj => (hbelow j hj).trans_le hnm⟩

/-- Once it is full, the next doubling is the first to hold one more. -/
theorem FirstToHold.double (h : FirstToHold base n n) (hn : 0 < n) :
    FirstToHold base (n + 1) (n * 2) := by
  obtain ⟨k, hk, -, -⟩ := h
  refine ⟨k + 1, ?_, by omega, ?_⟩
  · rw [pow_succ, ← Nat.mul_assoc, ← hk]
  · intro j hj
    have hle : base * 2 ^ j ≤ base * 2 ^ k :=
      Nat.mul_le_mul_left base (Nat.pow_le_pow_right Nat.two_pos (Nat.le_of_lt_succ hj))
    omega

theorem FirstToHold.base_le (h : FirstToHold base n capacity) : base ≤ capacity := by
  obtain ⟨k, hk, -, -⟩ := h
  rw [hk]
  exact Nat.le_mul_of_pos_right base (Nat.two_pow_pos k)

/-- Nothing has to be doubled for a heap that was empty all the time. -/
theorem FirstToHold.eq_base (h : FirstToHold base 0 capacity) : capacity = base := by
  obtain ⟨k, hk, -, hbelow⟩ := h
  cases k with
  | zero => rwa [pow_zero, Nat.mul_one] at hk
  | succ k => exact absurd (hbelow 0 (Nat.succ_pos k)) (Nat.not_lt_zero _)

/-! ### Changes of the size -/

variable {ι : Type} {h : Heap ι} {floor start : Nat}

/-- What a call can make of the size and the capacity of a heap. -/
inductive Resizes (h : Heap ι) : Heap ι → Prop
  | keeps : Resizes h h
  | grows {h' : Heap ι} (hsize : h'.size = h.size + 1) (hfloor : h'.floor = h.floor)
      (hroom : h'.capacity = if h.size = h.capacity then h.capacity * 2 else h.capacity) :
      Resizes h h'
  | shrinks {h' : Heap ι} (hsize : h'.size + 1 = h.size) (hfloor : h'.floor = h.floor)
      (hroom : h'.capacity =
        if h'.size = 0 ∧ h.floor < h.capacity then h.floor else h.capacity) : Resizes h h'

theorem Resizes.capacity_le {h' : Heap ι} (hs : Resizes h h') (hleft : h'.size ≠ 0) :
    h.capacity ≤ h'.capacity := by
  cases hs with
  | keeps => exact le_rfl
  | grows hsize hfloor hroom =>
    rw [hroom]
    split <;> omega
  | shrinks hsize hfloor hroom => rw [hroom, if_neg fun hzero => hleft hzero.1]

/-- What the capacity doubles from: the floor, once the heap has been empty. -/
def doubledFrom (floor start : Nat) (ns : List Nat) : Nat :=
  if 0 ∈ ns then floor else start

/-- A heap whose capacity goes with the sizes that it has had. -/
structure Roomy (floor start : Nat) (ns : List Nat) (h : Heap ι) : Prop where
  floor_pos : 0 < floor
  floor_le : floor ≤ start
  floor_eq : h.floor = floor
  head : ns.head? = some h.size
  room : FirstToHold (doubledFrom floor start ns) (largest ns) h.capacity

namespace Roomy

theorem size_le_largest (hr : Roomy floor start ns h) : h.size ≤ largest ns := by
  obtain ⟨rest, rfl⟩ := List.head?_eq_some_iff.mp hr.head
  rcases Nat.eq_zero_or_pos h.size with hzero | hpos
  · omega
  · rw [largest_cons hpos]
    exact le_max_left _ _

theorem size_le (hr : Roomy floor start ns h) : h.size ≤ h.capacity := by
  obtain ⟨k, -, hle, -⟩ := hr.room
  exact hr.size_le_largest.trans hle

theorem floor_le_capacity (hr : Roomy floor start ns h) : floor ≤ h.capacity := by
  apply le_trans _ hr.room.base_le
  rw [doubledFrom]
  split
  · exact le_rfl
  · exact hr.floor_le

theorem capacity_of_empty (hr : Roomy floor start ns h) (he : h.size = 0) :
    h.capacity = floor := by
  obtain ⟨rest, rfl⟩ := List.head?_eq_some_iff.mp hr.head
  have hroom := hr.room
  rw [he, largest_zero_cons, doubledFrom, if_pos List.mem_cons_self] at hroom
  exact hroom.eq_base

/-- A size that is not zero leaves open whether the heap has been empty. -/
theorem doubledFrom_cons (hn : 0 < n) :
    doubledFrom floor start (n :: ns) = doubledFrom floor start ns := by
  have hmem : 0 ∈ n :: ns ↔ 0 ∈ ns := by
    rw [List.mem_cons]
    exact or_iff_right hn.ne
  simp only [doubledFrom, hmem]

/-- A heap that is not empty after a change has room if the capacity is the right one. -/
theorem of_pos (hr : Roomy floor start ns h) {h' : Heap ι} (hpos : 0 < h'.size)
    (hfloor : h'.floor = h.floor)
    (hroom : FirstToHold (doubledFrom floor start ns) (max h'.size (largest ns))
      h'.capacity) : Roomy floor start (h'.size :: ns) h' := by
  refine ⟨hr.floor_pos, hr.floor_le, hfloor.trans hr.floor_eq, rfl, ?_⟩
  rw [doubledFrom_cons hpos, largest_cons hpos]
  exact hroom

/-- A heap that is empty after a change has given back what it had grown. -/
theorem of_empty (hr : Roomy floor start ns h) {h' : Heap ι} (he : h'.size = 0)
    (hfloor : h'.floor = h.floor) (hroom : h'.capacity = floor) :
    Roomy floor start (h'.size :: ns) h' := by
  refine ⟨hr.floor_pos, hr.floor_le, hfloor.trans hr.floor_eq, rfl, ?_⟩
  rw [he, largest_zero_cons, doubledFrom, if_pos List.mem_cons_self, hroom]
  exact firstToHold_base (Nat.zero_le floor)

theorem resizes (hr : Roomy floor start ns h) {h' : Heap ι} (hs : Resizes h h') :
    Roomy floor start (h'.size :: ns) h' := by
  have hlargest := hr.size_le_largest
  have hfloor := hr.floor_le_capacity
  have hcapacity := hr.size_le
  have hroom := hr.room
  obtain ⟨k, -, hholds, -⟩ := hr.room
  cases hs with
  | keeps =>
    rcases Nat.eq_zero_or_pos h.size with hzero | hpos
    · exact hr.of_empty hzero rfl (hr.capacity_of_empty hzero)
    · apply hr.of_pos hpos rfl
      rwa [max_eq_right hlargest]
  | grows hsize hfloor' hnew =>
    apply hr.of_pos (by omega) hfloor'
    by_cases hfull : h.size = h.capacity
    · -- a full heap is as large as it has ever been
      have hpeak : largest ns = h.capacity := by omega
      rw [hpeak] at hroom
      rw [hnew, if_pos hfull, hsize, hpeak, hfull, max_eq_left (Nat.le_succ _)]
      exact hroom.double (hr.floor_pos.trans_le hfloor)
    · rw [hnew, if_neg hfull]
      apply hroom.mono (le_max_right _ _)
      omega
  | shrinks hsize hfloor' hnew =>
    rw [hr.floor_eq] at hnew
    rcases Nat.eq_zero_or_pos h'.size with hzero | hpos
    · apply hr.of_empty hzero hfloor'
      rw [hnew]
      split <;> omega
    · apply hr.of_pos hpos hfloor'
      rw [hnew, if_neg (by omega), max_eq_right (by omega)]
      exact hroom

end Roomy

variable [LinearOrder ι]

/-! ### One call -/

theorem resizes_push (h : Heap ι) (b : Batch ι) : Resizes h (h.push b) := by
  refine .grows ?_ rfl rfl
  rw [← card_contents, contents_push, Multiset.card_cons, card_contents]

theorem resizes_pop? {rest : Heap ι} {b : Batch ι} (hp : h.pop? = some (b, rest)) :
    Resizes h rest := by
  have hsize : rest.size + 1 = h.size := by
    rw [← card_contents, ← card_contents, contents_of_pop? hp, Multiset.card_cons]
  have hn : 0 < h.entries.size := by
    have hsize' : h.entries.size = h.size := rfl
    omega
  rw [pop?, dif_pos hn] at hp
  dsimp only at hp
  by_cases he : (h.entries.swap 0 (h.entries.size - 1) hn (by omega)).pop.isEmpty = true
  · rw [if_pos he] at hp
    obtain ⟨-, rfl⟩ := Prod.mk.inj (Option.some.inj hp)
    refine .shrinks hsize rfl ?_
    have hzero : (h.entries.swap 0 (h.entries.size - 1) hn (by omega)).pop.size = 0 :=
      Array.isEmpty_iff_size_eq_zero.mp he
    simp only [size, hzero, true_and, gt_iff_lt]
  · rw [if_neg he] at hp
    obtain ⟨-, rfl⟩ := Prod.mk.inj (Option.some.inj hp)
    refine .shrinks hsize rfl (if_neg ?_).symm
    -- the array that is sifted has as many entries as there were but one
    rintro ⟨hzero, -⟩
    apply he
    rw [Array.isEmpty_iff_size_eq_zero, Array.size_pop, Array.size_swap]
    have hone : h.entries.size = 1 := hsize.symm.trans (congrArg (· + 1) hzero)
    omega

theorem resizes_call (h : Heap ι) (c : HeapCall ι) : Resizes h (h.call c).2 := by
  cases c with
  | push b => exact resizes_push h b
  | peek => exact .keeps
  | pop =>
    rw [call]
    cases hp : h.pop? with
    | none => exact .keeps
    | some r => exact resizes_pop? hp
  | extractMin =>
    rw [call, extractMin]
    cases hp : h.pop? with
    | none => exact .keeps
    | some r => exact resizes_pop? hp

/-! ### Many calls -/

/-- The sizes that a heap has had in the course of some calls, the latest first. -/
def sizes (h : Heap ι) (calls : List (HeapCall ι)) : List Nat :=
  calls.inits.reverse.map fun made => (h.after made).size

/-- A heap that has not been used yet, with the floor of its capacity and what it starts from. -/
inductive Sized : Heap ι → Nat → Nat → Prop
  | new : Sized new 128 128
  | withCapacity (n : Nat) : Sized (withCapacity n) (max n 1) (max n 1)
  | ofArray (bs : Array (Batch ι)) : Sized (ofArray bs) 128 (max bs.size 128)

theorem Sized.roomy (hs : Sized h floor start) : Roomy floor start [h.size] h := by
  have hzero {m : Nat} (hm : 0 < m) : FirstToHold (doubledFrom m m [0]) (largest [0]) m := by
    rw [doubledFrom, ite_self]
    exact firstToHold_base (Nat.zero_le m)
  cases hs with
  | new => exact ⟨by decide, le_rfl, rfl, rfl, hzero (by decide)⟩
  | withCapacity n =>
    have hpos : 0 < max n 1 := by omega
    exact ⟨hpos, le_rfl, rfl, rfl, hzero hpos⟩
  | ofArray bs =>
    have hsize : (Heap.ofArray bs).size = bs.size := by
      rw [← card_contents, contents_ofArray, Multiset.coe_card, Array.length_toList]
    refine ⟨by decide, le_max_right _ _, rfl, rfl, ?_⟩
    rw [hsize]
    show FirstToHold _ _ (max bs.size 128)
    rcases Nat.eq_zero_or_pos bs.size with hempty | hpos
    · rw [hempty, Nat.zero_max]
      exact hzero (by decide)
    · have hmem : 0 ∉ [bs.size] := by
        rw [List.mem_singleton]
        exact hpos.ne
      rw [doubledFrom, if_neg hmem, largest_cons hpos]
      apply firstToHold_base
      exact max_le (le_max_left _ _) (Nat.zero_le _)

theorem sizes_concat (h : Heap ι) (calls : List (HeapCall ι)) (c : HeapCall ι) :
    h.sizes (calls ++ [c]) = ((h.after calls).call c).2.size :: h.sizes calls := by
  have hinits : (calls ++ [c]).inits = calls.inits ++ [calls ++ [c]] := by
    rw [List.inits_append]
    rfl
  rw [sizes, hinits, List.reverse_append, List.reverse_singleton, List.singleton_append,
    List.map_cons, after, List.foldl_concat]
  rfl

theorem Sized.after (hs : Sized h floor start) (calls : List (HeapCall ι)) :
    Roomy floor start (h.sizes calls) (h.after calls) := by
  -- from the last call back, since the sizes grow at that end
  induction calls using List.reverseRecOn with
  | nil => exact hs.roomy
  | append_singleton calls c ih =>
    have hlast : h.after (calls ++ [c]) = ((h.after calls).call c).2 := List.foldl_concat ..
    rw [sizes_concat, hlast]
    exact ih.resizes (resizes_call _ c)

/-- The capacity of a heap. After any calls it is the first doubling that holds the largest size
since the heap was last empty, of the floor if it has been empty and else of what it started from.
The floor never changes; all batches fit, so that what is reserved for a push or for the batches at
the start is no difference below zero; an empty heap has the capacity of its floor, and the capacity
shrinks in no call that leaves a batch in the heap. -/
theorem capacity_follows_size (hs : Sized h floor start) (calls : List (HeapCall ι)) :
    let now := h.after calls
    FirstToHold (doubledFrom floor start (h.sizes calls)) (largest (h.sizes calls)) now.capacity ∧
      now.floor = floor ∧ floor ≤ now.capacity ∧
      now.size ≤ now.capacity ∧ h.size ≤ h.capacity ∧ (∀ b, now.size ≤ (now.push b).capacity) ∧
      (now.size = 0 → now.capacity = floor) ∧
      ∀ c, (now.call c).2.size ≠ 0 → now.capacity ≤ (now.call c).2.capacity := by
  intro now
  have hnow : Roomy floor start (h.sizes calls) now := hs.after calls
  refine ⟨hnow.room, hnow.floor_eq, hnow.floor_le_capacity, hnow.size_le, hs.roomy.size_le, ?_,
    hnow.capacity_of_empty, ?_⟩
  · intro b
    have hpushed := (hnow.resizes (resizes_push now b)).size_le
    have hsize : (now.push b).size = now.size + 1 := by
      rw [← card_contents, contents_push, Multiset.card_cons, card_contents]
    omega
  · intro c hleft
    exact (resizes_call now c).capacity_le hleft

/-- A heap that is built of one batch more than its floor doubles from there. -/
theorem capacity_follows_size_of_overfull :
    let h : Heap Nat := ofArray (Array.replicate 129 .empty)
    let calls : List (HeapCall Nat) := [.push .empty]
    Sized h 128 129 ∧ (h.after calls).capacity = 258 ∧
      FirstToHold (doubledFrom 128 129 (h.sizes calls)) (largest (h.sizes calls)) 258 := by
  intro h calls
  have hstart : max (Array.replicate 129 (.empty : Batch Nat)).size 128 = 129 := by
    rw [Array.size_replicate]
    rfl
  have hs : Sized h 128 129 := by
    rw [← hstart]
    exact .ofArray _
  have hdoubled : (h.after calls).capacity = 258 := by decide +kernel
  have hroom := (capacity_follows_size hs calls).1
  rw [hdoubled] at hroom
  exact ⟨hs, hdoubled, hroom⟩

/-- A burst of three batches in a heap with room for one, and its end. -/
example :
    let h : Heap Nat := withCapacity 0
    let burst : List (HeapCall Nat) := [.push .empty, .push .empty, .push .empty]
    (h.after burst).capacity = 4 ∧ (h.after (burst ++ [.pop, .pop])).capacity = 4 ∧
      (h.after (burst ++ [.pop, .pop, .extractMin])).capacity = 1 := by
  decide +kernel

end Heap

end Multicast
