import Mathlib.Order.WithBot
import Multicast.Proofs.Heap.Contents

/-! The order of a heap over ids with a total order. A sift repairs the one place at which an array
is out of order, and leaves the order elsewhere as it is; positions are compared by `Sift.rankAt`,
which puts a place without an entry above all others, so that no bounds have to be carried along. -/

namespace Multicast

variable {ι : Type}

/-- The place of a batch in the order: its last id, or below all ids if it has no items. -/
def Batch.rank (b : Batch ι) : WithBot ι :=
  match b.lastId? with
  | none => ⊥
  | some id => id

theorem Batch.before_iff [LinearOrder ι] (a b : Batch ι) : a.before b = true ↔ a.rank < b.rank := by
  unfold Batch.before Batch.rank
  cases a.lastId? with
  | none =>
    cases b.lastId? with
    | none => simp [idBefore]
    | some y => simp [idBefore]
  | some x =>
    cases b.lastId? with
    | none => simp [idBefore]
    | some y => simp [idBefore]

namespace Sift

/-- The rank of the entry at a position; where there is none, above all ranks. -/
def rankAt (a : Array (Batch ι)) (i : Nat) : WithTop (WithBot ι) :=
  if h : i < a.size then (a[i].rank : WithTop (WithBot ι)) else ⊤

theorem rankAt_of_lt {a : Array (Batch ι)} {i : Nat} (h : i < a.size) :
    rankAt a i = (a[i].rank : WithTop (WithBot ι)) := dif_pos h

theorem rankAt_of_le {a : Array (Batch ι)} {i : Nat} (h : a.size ≤ i) : rankAt a i = ⊤ :=
  dif_neg (Nat.not_lt.mpr h)

theorem rankAt_swap (a : Array (Batch ι)) {i j : Nat} (hi : i < a.size) (hj : j < a.size) (k : Nat) :
    rankAt (a.swap i j hi hj) k =
      if k = i then rankAt a j else if k = j then rankAt a i else rankAt a k := by
  by_cases hk : k < a.size
  · have hk' : k < (a.swap i j hi hj).size := by rwa [Array.size_swap]
    rw [rankAt_of_lt hk', rankAt_of_lt hi, rankAt_of_lt hj, rankAt_of_lt hk, Array.getElem_swap]
    split
    · rfl
    · split
      · rfl
      · rfl
  · have hki : k ≠ i := by omega
    have hkj : k ≠ j := by omega
    have hle : a.size ≤ k := Nat.not_lt.mp hk
    rw [if_neg hki, if_neg hkj, rankAt_of_le hle, rankAt_of_le]
    rwa [Array.size_swap]

theorem rankAt_push (a : Array (Batch ι)) (b : Batch ι) {i : Nat} (hi : i ≠ a.size) :
    rankAt (a.push b) i = rankAt a i := by
  by_cases hlt : i < a.size
  · have hlt' : i < (a.push b).size := by
      rw [Array.size_push]
      omega
    rw [rankAt_of_lt hlt, rankAt_of_lt hlt', Array.getElem_push_lt hlt]
  · rw [rankAt_of_le (Nat.not_lt.mp hlt), rankAt_of_le]
    rw [Array.size_push]
    omega

/-- What is left when the root has changed places with the last entry and is taken away. -/
theorem rankAt_pop_swap (a : Array (Batch ι)) (hn : 0 < a.size) {i : Nat} (hi : 0 < i) :
    rankAt (a.swap 0 (a.size - 1) hn (by omega)).pop i =
      if i < a.size - 1 then rankAt a i else ⊤ := by
  split
  · rename_i hlt
    have hlt' : i < (a.swap 0 (a.size - 1) hn (by omega)).pop.size := by
      rwa [Array.size_pop, Array.size_swap]
    rw [rankAt_of_lt hlt', rankAt_of_lt (a := a) (by omega), Array.getElem_pop,
      Array.getElem_swap_of_ne]
    · omega
    · omega
  · rename_i hge
    apply rankAt_of_le
    rw [Array.size_pop, Array.size_swap]
    omega

variable [LinearOrder ι]

theorem before_iff_rankAt {a : Array (Batch ι)} {i j : Nat} (hi : i < a.size) (hj : j < a.size) :
    a[i].before a[j] = true ↔ rankAt a i < rankAt a j := by
  rw [rankAt_of_lt hi, rankAt_of_lt hj, WithTop.coe_lt_coe]
  exact Batch.before_iff _ _

/-- The children of the positions in `S` do not come before their parents. -/
def OrderedOn (S : Nat → Prop) (a : Array (Batch ι)) : Prop :=
  ∀ i, 0 < i → S ((i - 1) / 2) → rankAt a ((i - 1) / 2) ≤ rankAt a i

/-! ### Towards the root -/

/-- An array in order, but for the entry at `hole`, which may come before its parent. -/
structure UpOrder (a : Array (Batch ι)) (hole : Nat) : Prop where
  apart : ∀ i, 0 < i → i ≠ hole → rankAt a ((i - 1) / 2) ≤ rankAt a i
  across : 0 < hole → ∀ i, 0 < i → (i - 1) / 2 = hole → rankAt a ((hole - 1) / 2) ≤ rankAt a i

/-- The entry that comes before its parent changes places with it. -/
theorem UpOrder.move {a : Array (Batch ι)} {hole : Nat} (h : UpOrder a hole) (hpos : 0 < hole)
    (hlt : hole < a.size) (hp : (hole - 1) / 2 < a.size)
    (hb : rankAt a hole < rankAt a ((hole - 1) / 2)) :
    UpOrder (a.swap hole ((hole - 1) / 2) hlt hp) ((hole - 1) / 2) := by
  generalize hq : (hole - 1) / 2 = q at *
  have hqlt : q < hole := by omega
  refine ⟨?_, ?_⟩
  · intro i hi hiq
    rw [rankAt_swap, rankAt_swap]
    by_cases hih : i = hole
    · subst hih
      -- the parent has come down to the child's place
      rw [hq, if_neg (by omega), if_pos rfl, if_pos rfl]
      exact hb.le
    · rw [if_neg hih, if_neg hiq]
      by_cases hph : (i - 1) / 2 = hole
      · rw [if_pos hph]
        exact hq ▸ h.across hpos i hi hph
      · rw [if_neg hph]
        by_cases hpq : (i - 1) / 2 = q
        · rw [if_pos hpq]
          calc rankAt a hole ≤ rankAt a q := hb.le
            _ ≤ rankAt a i := hpq ▸ h.apart i hi hih
        · rw [if_neg hpq]
          exact h.apart i hi hih
  · intro hq0 i hi hiq
    have habove : rankAt a ((q - 1) / 2) ≤ rankAt a q := h.apart q hq0 (by omega)
    rw [rankAt_swap, rankAt_swap, if_neg (by omega), if_neg (by omega)]
    by_cases hih : i = hole
    · rw [if_pos hih]
      exact habove
    · rw [if_neg hih, if_neg (by omega)]
      calc rankAt a ((q - 1) / 2) ≤ rankAt a q := habove
        _ ≤ rankAt a i := hiq ▸ h.apart i hi hih

/-- An entry that does not come before its parent leaves nothing out of order. -/
theorem UpOrder.finish {a : Array (Batch ι)} {hole : Nat} (h : UpOrder a hole)
    (hstop : 0 < hole → rankAt a ((hole - 1) / 2) ≤ rankAt a hole) :
    OrderedOn (fun _ => True) a := by
  intro i hi _
  by_cases hih : i = hole
  · subst hih
    exact hstop hi
  · exact h.apart i hi hih

theorem orderedOn_up {a : Array (Batch ι)} {hole : Nat} (h : UpOrder a hole) :
    OrderedOn (fun _ => True) (up a hole) := by
  fun_induction up a hole with
  | case1 a hole hin hp hb ih =>
    exact ih (h.move hin.1 hin.2 hp ((before_iff_rankAt hin.2 hp).mp hb))
  | case2 a hole hin hp hb =>
    apply h.finish
    intro _
    exact not_lt.mp (mt (before_iff_rankAt hin.2 hp).mpr hb)
  | case3 a hole hout =>
    apply h.finish
    intro hpos
    -- the place is outside the array, and ranks above all others
    rw [rankAt_of_le (i := hole) (by omega)]
    exact le_top

/-! ### Away from the root -/

/-- The positions in `S` are in order, but for the entry at `hole`, which may come after its
children. -/
structure DownOrder (S : Nat → Prop) (a : Array (Batch ι)) (hole : Nat) : Prop where
  apart : ∀ i, 0 < i → S ((i - 1) / 2) → (i - 1) / 2 ≠ hole → rankAt a ((i - 1) / 2) ≤ rankAt a i
  across : 0 < hole → S ((hole - 1) / 2) → ∀ i, 0 < i → (i - 1) / 2 = hole →
    rankAt a ((hole - 1) / 2) ≤ rankAt a i

theorem rankAt_prefer (a : Array (Batch ι)) (s : Fin a.size) (j : Nat) :
    rankAt a (prefer a s j) = min (rankAt a s) (rankAt a j) := by
  unfold prefer
  split
  · rename_i hj
    split
    · rename_i hb
      exact (min_eq_right ((before_iff_rankAt hj s.isLt).mp hb).le).symm
    · rename_i hb
      exact (min_eq_left (not_lt.mp (mt (before_iff_rankAt hj s.isLt).mpr hb))).symm
  · rename_i hj
    rw [rankAt_of_le (Nat.not_lt.mp hj)]
    exact (min_eq_left le_top).symm

theorem rankAt_first (a : Array (Batch ι)) (i : Nat) (hi : i < a.size) :
    rankAt a (first a i hi) =
      min (min (rankAt a i) (rankAt a (2 * i + 1))) (rankAt a (2 * i + 2)) := by
  rw [first, rankAt_prefer, rankAt_prefer]

/-- Neither the position itself nor one of its children comes before the first of the three. -/
theorem rankAt_first_le (a : Array (Batch ι)) {i : Nat} (hi : i < a.size) {j : Nat}
    (hj : j = i ∨ 0 < j ∧ (j - 1) / 2 = i) : rankAt a (first a i hi) ≤ rankAt a j := by
  have hcases : j = i ∨ j = 2 * i + 1 ∨ j = 2 * i + 2 := by omega
  rw [rankAt_first]
  rcases hcases with rfl | rfl | rfl
  · exact (min_le_left _ _).trans (min_le_left _ _)
  · exact (min_le_left _ _).trans (min_le_right _ _)
  · exact min_le_right _ _

/-- The entry that comes after one of its children changes places with the first of them. -/
theorem DownOrder.move {S : Nat → Prop} {a : Array (Batch ι)} {hole : Nat} (h : DownOrder S a hole)
    (hS : ∀ i, 0 < i → S ((i - 1) / 2) → S i) (hlt : hole < a.size)
    (hne : (first a hole hlt).val ≠ hole) :
    DownOrder S (a.swap hole (first a hole hlt).val hlt (first a hole hlt).isLt)
      (first a hole hlt).val := by
  have hmin := fun j => rankAt_first_le a hlt (j := j)
  have hchild : 0 < (first a hole hlt).val ∧ ((first a hole hlt).val - 1) / 2 = hole := by
    have hor := first_eq_or a hole hlt
    omega
  generalize (first a hole hlt) = c at *
  obtain ⟨hc0, hcp⟩ := hchild
  have hgt : hole < c.val := by omega
  refine ⟨?_, ?_⟩
  · intro i hi hSi hic
    rw [rankAt_swap, rankAt_swap]
    by_cases hph : (i - 1) / 2 = hole
    · -- the first child now stands above both places
      rw [if_pos hph, if_neg (show i ≠ hole by omega)]
      by_cases hi' : i = c.val
      · rw [if_pos hi']
        exact hmin hole (.inl rfl)
      · rw [if_neg hi']
        exact hmin i (.inr ⟨hi, hph⟩)
    · rw [if_neg hph, if_neg hic]
      by_cases hih : i = hole
      · subst hih
        rw [if_pos rfl]
        exact h.across hi hSi c.val hc0 hcp
      · rw [if_neg hih, if_neg (fun hi' : i = c.val => hph (hi' ▸ hcp))]
        exact h.apart i hi hSi hph
  · intro _ hSp i hi hip
    have hiS : S ((i - 1) / 2) := by
      rw [hip]
      exact hS c.val hc0 hSp
    have hbelow : rankAt a c.val ≤ rankAt a i := by
      have hapart := h.apart i hi hiS (by omega)
      rwa [hip] at hapart
    rw [rankAt_swap, rankAt_swap, if_pos hcp, if_neg (by omega), if_neg (by omega)]
    exact hbelow

/-- An entry that comes after neither of its children leaves nothing out of order. -/
theorem DownOrder.finish {S : Nat → Prop} {a : Array (Batch ι)} {hole : Nat} (h : DownOrder S a hole)
    (hstop : ∀ i, 0 < i → (i - 1) / 2 = hole → rankAt a hole ≤ rankAt a i) : OrderedOn S a := by
  intro i hi hSi
  by_cases hph : (i - 1) / 2 = hole
  · rw [hph]
    exact hstop i hi hph
  · exact h.apart i hi hSi hph

/-- A sift away from the root repairs any set of positions that holds the children of its
members. -/
theorem orderedOn_down {S : Nat → Prop} {a : Array (Batch ι)} {hole : Nat} (h : DownOrder S a hole)
    (hS : ∀ i, 0 < i → S ((i - 1) / 2) → S i) : OrderedOn S (down a hole) := by
  fun_induction down a hole with
  | case1 a hole hlt c hc =>
    apply h.finish
    intro i hi hip
    have hmin : rankAt a c.val ≤ rankAt a i := rankAt_first_le a hlt (.inr ⟨hi, hip⟩)
    rwa [hc] at hmin
  | case2 a hole hlt c hc ih => exact ih (h.move hS hlt hc)
  | case3 a hole hout =>
    apply h.finish
    intro i hi hip
    -- a place outside the array has no children inside
    rw [rankAt_of_le (i := i) (by omega)]
    exact le_top

/-- The loop repairs one position after the other, the last parent first. -/
theorem orderedOn_heapify {a : Array (Batch ι)} {n : Nat} (h : OrderedOn (n ≤ ·) a) :
    OrderedOn (fun _ => True) (heapify a n) := by
  induction n generalizing a with
  | zero => exact fun i hi _ => h i hi (Nat.zero_le _)
  | succ n ih =>
    apply ih
    apply orderedOn_down
    · refine ⟨?_, ?_⟩
      · intro i hi hSi hne
        exact h i hi (by omega)
      · intro hpos hSp
        omega
    · intro i hi hSi
      omega

/-- No position from the middle of an array on has a child inside. -/
theorem orderedOn_half (a : Array (Batch ι)) : OrderedOn (a.size / 2 ≤ ·) a := by
  intro i hi hhalf
  rw [rankAt_of_le (i := i) (by omega)]
  exact le_top

/-- A new entry at the end may come before its parent, and nothing else is out of order. -/
theorem upOrder_push {a : Array (Batch ι)} (h : OrderedOn (fun _ => True) a) (b : Batch ι) :
    UpOrder (a.push b) a.size := by
  refine ⟨?_, ?_⟩
  · intro i hi hne
    rw [rankAt_push a b hne]
    by_cases hp : (i - 1) / 2 = a.size
    · rw [rankAt_of_le (a := a) (i := i) (by omega)]
      exact le_top
    · rw [rankAt_push a b hp]
      exact h i hi trivial
  · intro hpos i hi hp
    rw [rankAt_of_le (a := a.push b) (i := i) (by rw [Array.size_push]; omega)]
    exact le_top

/-- The entry that has come to the root may come after its children, and nothing else is out of
order. -/
theorem downOrder_pop_swap {a : Array (Batch ι)} (h : OrderedOn (fun _ => True) a)
    (hn : 0 < a.size) :
    DownOrder (fun _ => True) (a.swap 0 (a.size - 1) hn (Nat.sub_lt hn Nat.one_pos)).pop 0 := by
  refine ⟨?_, ?_⟩
  · intro i hi _ hne
    rw [rankAt_pop_swap a hn hi, rankAt_pop_swap a hn (Nat.pos_of_ne_zero hne)]
    by_cases hlt : i < a.size - 1
    · rw [if_pos hlt, if_pos (by omega)]
      exact h i hi trivial
    · rw [if_neg hlt]
      exact le_top
  · intro hpos
    exact absurd hpos (Nat.lt_irrefl 0)

end Sift

namespace Heap

variable [LinearOrder ι]

/-- No entry comes before its parent. -/
def Ordered (h : Heap ι) : Prop :=
  ∀ i (hi : i < h.entries.size), 0 < i →
    h.entries[(i - 1) / 2].rank ≤ h.entries[i].rank

theorem ordered_iff (h : Heap ι) : h.Ordered ↔ Sift.OrderedOn (fun _ => True) h.entries := by
  constructor
  · intro ho i hi _
    by_cases hlt : i < h.entries.size
    · rw [Sift.rankAt_of_lt hlt, Sift.rankAt_of_lt (i := (i - 1) / 2) (by omega),
        WithTop.coe_le_coe]
      exact ho i hlt hi
    · rw [Sift.rankAt_of_le (i := i) (Nat.not_lt.mp hlt)]
      exact le_top
  · intro ho i hlt hi
    have hle := ho i hi trivial
    rwa [Sift.rankAt_of_lt hlt, Sift.rankAt_of_lt (i := (i - 1) / 2) (by omega),
      WithTop.coe_le_coe] at hle

theorem ordered_withCapacity (n : Nat) : (withCapacity n : Heap ι).Ordered := nofun

theorem ordered_ofArray (batches : Array (Batch ι)) : (ofArray batches).Ordered :=
  (ordered_iff _).mpr (Sift.orderedOn_heapify (Sift.orderedOn_half batches))

theorem Ordered.push {h : Heap ι} (ho : h.Ordered) (b : Batch ι) : (h.push b).Ordered := by
  rw [ordered_iff] at ho ⊢
  exact Sift.orderedOn_up (Sift.upOrder_push ho b)

theorem Ordered.pop? {h rest : Heap ι} {b : Batch ι} (ho : h.Ordered)
    (hp : h.pop? = some (b, rest)) : rest.Ordered := by
  unfold Heap.pop? at hp
  split at hp
  · rename_i hn
    rw [ordered_iff] at ho ⊢
    have hdown := Sift.orderedOn_down (Sift.downOrder_pop_swap ho hn) fun _ _ _ => trivial
    dsimp only at hp
    split at hp
    · rename_i hempty
      obtain ⟨-, rfl⟩ := Prod.mk.inj (Option.some.inj hp)
      -- nothing is left that could be out of order
      intro i hi _
      have hsize := Array.isEmpty_iff_size_eq_zero.mp hempty
      rw [Sift.rankAt_of_le (i := i) (hsize.le.trans (Nat.zero_le i))]
      exact le_top
    · obtain ⟨-, rfl⟩ := Prod.mk.inj (Option.some.inj hp)
      exact hdown
  · cases hp

/-- No entry comes before the root. -/
theorem Ordered.root_le {h : Heap ι} (ho : h.Ordered) (hn : 0 < h.entries.size) (i : Nat)
    (hi : i < h.entries.size) : h.entries[0].rank ≤ h.entries[i].rank := by
  induction i using Nat.strongRecOn with
  | ind i ih =>
    by_cases hi0 : i = 0
    · subst hi0
      exact le_refl _
    · calc h.entries[0].rank ≤ h.entries[(i - 1) / 2].rank := ih _ (by omega) _
        _ ≤ h.entries[i].rank := ho i hi (by omega)

theorem Ordered.root_le_of_mem {h : Heap ι} (ho : h.Ordered) (hn : 0 < h.entries.size) {b : Batch ι}
    (hb : b ∈ h.contents) : h.entries[0].rank ≤ b.rank := by
  have hmem : b ∈ h.entries.toList := hb
  obtain ⟨i, hi, rfl⟩ := List.getElem_of_mem hmem
  exact ho.root_le hn i (by simpa using hi)

end Heap

end Multicast
