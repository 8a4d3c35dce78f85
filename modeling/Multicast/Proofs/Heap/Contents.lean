import Mathlib.Data.Multiset.Basic
import Multicast.Heap

/-! What a heap holds, without regard to order. Sifting only moves entries, so the multiset of the
pending batches grows by what is pushed and shrinks by what is taken. -/

namespace Multicast

variable {ι : Type} [LT ι] [DecidableLT ι]

namespace Sift

theorem up_perm (a : Array (Batch ι)) (i : Nat) : (up a i).toList.Perm a.toList := by
  fun_induction up a i with
  | case1 a i h hp _ ih => exact ih.trans (Array.swap_perm h.2 hp).toList
  | case2 => exact .refl _
  | case3 => exact .refl _

theorem down_perm (a : Array (Batch ι)) (i : Nat) : (down a i).toList.Perm a.toList := by
  fun_induction down a i with
  | case1 => exact .refl _
  | case2 a i hi c _ ih => exact ih.trans (Array.swap_perm hi c.isLt).toList
  | case3 => exact .refl _

theorem heapify_perm (a : Array (Batch ι)) (n : Nat) : (heapify a n).toList.Perm a.toList := by
  induction n generalizing a with
  | zero => exact .refl _
  | succ n ih => exact (ih (down a n)).trans (down_perm a n)

omit [LT ι] [DecidableLT ι] in
/-- Of the array with its ends exchanged, the last entry is the old root and the others remain. -/
theorem cons_pop_swap_perm (a : Array (Batch ι)) (hn : 0 < a.size) :
    (a[0] :: (a.swap 0 (a.size - 1) hn (by omega)).pop.toList).Perm a.toList := by
  have hback : (a.swap 0 (a.size - 1) hn (by omega)).pop.push a[0] =
      a.swap 0 (a.size - 1) hn (by omega) := by
    ext i hi hi'
    · simp only [Array.size_push, Array.size_pop, Array.size_swap]
      omega
    · grind
  have hperm := (Array.swap_perm hn (show a.size - 1 < a.size by omega)).toList
  rw [← hback, Array.toList_push] at hperm
  exact (List.perm_append_singleton _ _).symm.trans hperm

end Sift

namespace Heap

omit [LT ι] [DecidableLT ι]

/-- The pending batches, in no order. -/
def contents (h : Heap ι) : Multiset (Batch ι) := h.toList

@[simp] theorem contents_withCapacity (n : Nat) : (withCapacity n : Heap ι).contents = 0 := rfl

theorem contents_eq_zero_iff (h : Heap ι) : h.contents = 0 ↔ h.isEmpty = true := by
  simp [contents, toList, isEmpty]

@[simp] theorem card_contents (h : Heap ι) : h.contents.card = h.size := by
  simp [contents, toList, size]

variable [LT ι] [DecidableLT ι]

theorem contents_ofArray (batches : Array (Batch ι)) :
    (ofArray batches).contents = (batches.toList : Multiset (Batch ι)) :=
  Multiset.coe_eq_coe.mpr (Sift.heapify_perm batches _)

@[simp] theorem contents_push (h : Heap ι) (b : Batch ι) :
    (h.push b).contents = b ::ₘ h.contents := by
  have hp := Sift.up_perm (h.entries.push b) h.entries.size
  rw [Array.toList_push] at hp
  exact Multiset.coe_eq_coe.mpr (hp.trans (List.perm_append_singleton _ _))

/-- From a heap that is not empty the root is taken, and the other entries remain. -/
theorem pop?_of_pos (h : Heap ι) (hn : 0 < h.entries.size) :
    ∃ rest : Heap ι, h.pop? = some (h.entries[0], rest) ∧
      (h.entries[0] :: rest.toList).Perm h.toList := by
  have hs := Sift.cons_pop_swap_perm h.entries hn
  have hd := ((Sift.down_perm (h.entries.swap 0 (h.entries.size - 1) hn (by omega)).pop 0).cons
    h.entries[0]).trans hs
  rw [pop?, dif_pos hn]
  by_cases he : (h.entries.swap 0 (h.entries.size - 1) hn (by omega)).pop.isEmpty = true
  · rw [if_pos he]
    exact ⟨_, rfl, hs⟩
  · rw [if_neg he]
    exact ⟨_, rfl, hd⟩

theorem pop?_eq_none_iff (h : Heap ι) : h.pop? = none ↔ h.contents = 0 := by
  rw [contents_eq_zero_iff, isEmpty, Array.isEmpty_iff_size_eq_zero]
  constructor
  · intro hp
    by_contra hne
    obtain ⟨rest, hrest, _⟩ := pop?_of_pos h (Nat.pos_of_ne_zero hne)
    rw [hp] at hrest
    cases hrest
  · intro he
    rw [pop?, dif_neg (by omega)]

/-- A batch that is taken was pending, and the others stay. -/
theorem contents_of_pop? {h rest : Heap ι} {b : Batch ι} (hp : h.pop? = some (b, rest)) :
    h.contents = b ::ₘ rest.contents := by
  have hn : 0 < h.entries.size := by
    by_contra hne
    rw [pop?, dif_neg hne] at hp
    cases hp
  obtain ⟨rest', hrest, hperm⟩ := pop?_of_pos h hn
  obtain ⟨rfl, rfl⟩ := Prod.mk.inj (Option.some.inj (hp.symm.trans hrest))
  exact Multiset.coe_eq_coe.mpr hperm.symm

end Heap

end Multicast
