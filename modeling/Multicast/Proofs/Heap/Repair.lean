import Mathlib.Algebra.Group.Nat.Defs
import Mathlib.Logic.Equiv.Basic
import Multicast.Proofs.Heap.Order

/-! What a sift away from the root does to an array. It repairs one position: if the subtree at the
position is in order but for the position itself, the whole subtree is in order afterwards; entries
change places inside the subtree only. The loop that moves the entry comes to its end after as many
turns as the position can be doubled inside the array, and looks at no place outside of it; so it is
written down once more here with a limit on its turns and a check at every access. -/

namespace Multicast.Sift

variable {ι : Type}

/-! ### Subtrees -/

/-- The positions below a root, and the root. -/
inductive InSubtree (root : Nat) : Nat → Prop
  | root : InSubtree root root
  | child {j : Nat} (hpos : 0 < j) (hparent : InSubtree root ((j - 1) / 2)) : InSubtree root j

section Subtrees

variable {i j k : Nat}

theorem InSubtree.le (h : InSubtree i j) : i ≤ j := by
  induction h with
  | root => exact Nat.le_refl i
  | child hpos _ ih => omega

theorem InSubtree.trans (hij : InSubtree i j) (hjk : InSubtree j k) : InSubtree i k := by
  induction hjk with
  | root => exact hij
  | child hpos _ ih => exact .child hpos ih

/-- The parent of a root is not in its subtree. -/
theorem not_inSubtree_parent (hpos : 0 < i) : ¬ InSubtree i ((i - 1) / 2) := by
  intro h
  have hle : i ≤ (i - 1) / 2 := h.le
  omega

end Subtrees

/-! ### Rearrangements -/

/-- The entries of one array are those of another, and only the positions in `S` have exchanged
theirs. -/
def Rearranges (S : Nat → Prop) (a b : Array (Batch ι)) : Prop :=
  ∃ σ : Equiv.Perm Nat, (∀ i, ¬ S i → σ i = i) ∧ ∀ i, b[i]? = a[σ i]?

section Rearrangements

variable {S T : Nat → Prop} {a b c : Array (Batch ι)} {i j : Nat}

theorem Rearranges.refl (S : Nat → Prop) (a : Array (Batch ι)) : Rearranges S a a :=
  ⟨Equiv.refl Nat, fun _ _ => rfl, fun _ => rfl⟩

theorem Rearranges.trans (hab : Rearranges S a b) (hbc : Rearranges S b c) : Rearranges S a c := by
  obtain ⟨σ, hσ, hb⟩ := hab
  obtain ⟨τ, hτ, hc⟩ := hbc
  refine ⟨τ.trans σ, ?_, ?_⟩
  · intro i hi
    rw [Equiv.trans_apply, hτ i hi, hσ i hi]
  · intro i
    rw [hc, hb, Equiv.trans_apply]

theorem Rearranges.mono (h : Rearranges S a b) (hST : ∀ i, S i → T i) : Rearranges T a b := by
  obtain ⟨σ, hσ, hb⟩ := h
  exact ⟨σ, fun i hi => hσ i (mt (hST i) hi), hb⟩

theorem Rearranges.getElem?_eq (h : Rearranges S a b) (hi : ¬ S i) : b[i]? = a[i]? := by
  obtain ⟨σ, hσ, hb⟩ := h
  rw [hb, hσ i hi]

theorem rearranges_swap (hi : i < a.size) (hj : j < a.size) (hSi : S i) (hSj : S j) :
    Rearranges S a (a.swap i j hi hj) := by
  refine ⟨Equiv.swap i j, ?_, ?_⟩
  · intro k hk
    apply Equiv.swap_apply_of_ne_of_ne
    · rintro rfl
      exact hk hSi
    · rintro rfl
      exact hk hSj
  · intro k
    rw [Array.getElem?_swap, Equiv.swap_apply_def]
    grind

variable [LT ι] [DecidableLT ι]

theorem first_inSubtree (a : Array (Batch ι)) {i : Nat} (hi : i < a.size) :
    InSubtree i (first a i hi) := by
  have hroot : InSubtree i i := .root
  rcases first_eq_or a i hi with h | h | h
  · rw [h]
    exact hroot
  · refine .child (by omega) ?_
    have hparent : ((first a i hi).val - 1) / 2 = i := by omega
    rwa [hparent]
  · refine .child (by omega) ?_
    have hparent : ((first a i hi).val - 1) / 2 = i := by omega
    rwa [hparent]

theorem rearranges_down (a : Array (Batch ι)) (i : Nat) : Rearranges (InSubtree i) a (down a i) := by
  fun_induction down a i with
  | case1 a i => exact .refl _ a
  | case2 a i hi c _ ih =>
    have hc : InSubtree i c := first_inSubtree a hi
    have hswap : Rearranges (InSubtree i) a (a.swap i c hi c.isLt) :=
      rearranges_swap hi c.isLt .root hc
    exact hswap.trans (ih.mono fun _ => hc.trans)
  | case3 a i => exact .refl _ a

@[simp] theorem size_down (a : Array (Batch ι)) (i : Nat) : (down a i).size = a.size := by
  rw [← Array.length_toList, (down_perm a i).length_eq, Array.length_toList]

end Rearrangements

/-! ### The loop with its accesses checked -/

section Checked

variable [LT ι] [DecidableLT ι]

/-- Whether the entry at `j` stands before that at `i`; no answer if one of them is missing. -/
def before? (a : Array (Batch ι)) (j i : Nat) : Option Bool := do
  return (← a[j]?).before (← a[i]?)

/-- The array with two entries exchanged; no answer if one of them is missing. -/
def swap? (a : Array (Batch ι)) (i j : Nat) : Option (Array (Batch ι)) :=
  if h : i < a.size ∧ j < a.size then some (a.swap i j h.1 h.2) else none

/-- Position `j` if it is inside the array and its entry stands before that of `i`, else `i`. -/
def prefer? (a : Array (Batch ι)) (i j : Nat) : Option Nat := do
  if j < a.size then
    if ← before? a j i then return j
  return i

/-- Of `i` and its children the one whose entry stands first. -/
def first? (a : Array (Batch ι)) (i : Nat) : Option Nat := do
  prefer? a (← prefer? a i (2 * i + 1)) (2 * i + 2)

/-- The sift from `i` by a loop of so many turns. There is no answer if the loop has not come to its
end by then, or if it has used a place outside the array. -/
def down? : Nat → Array (Batch ι) → Nat → Option (Array (Batch ι))
  | 0, _, _ => none
  | turns + 1, a, i => do
    let c ← first? a i
    if c = i then return a
    down? turns (← swap? a i c) c

/-- The sifts from `n - 1` down to `0`, each by a loop of so many turns. -/
def heapify? (turns : Nat) (a : Array (Batch ι)) : Nat → Option (Array (Batch ι))
  | 0 => some a
  | n + 1 => do heapify? turns (← down? turns a n) n

variable {a : Array (Batch ι)} {i j turns n : Nat}

theorem prefer?_of_lt (hi : i < a.size) (j : Nat) :
    prefer? a i j = some (prefer a ⟨i, hi⟩ j).val := by
  by_cases hj : j < a.size
  · cases hb : a[j].before a[i] with
    | true => simp [prefer?, prefer, before?, hi, hj, hb]
    | false => simp [prefer?, prefer, before?, hi, hj, hb]
  · simp [prefer?, prefer, hj]

/-- Inside the array every place that is compared is there. -/
theorem first?_of_lt (hi : i < a.size) : first? a i = some (first a i hi).val := by
  rw [first?, prefer?_of_lt hi]
  exact prefer?_of_lt (prefer a ⟨i, hi⟩ (2 * i + 1)).isLt (2 * i + 2)

/-- Outside the array nothing is compared. -/
theorem first?_of_le (hi : a.size ≤ i) : first? a i = some i := by
  have hleft : ¬ 2 * i + 1 < a.size := by omega
  have hright : ¬ 2 * i + 2 < a.size := by omega
  simp [first?, prefer?, hleft, hright]

theorem down?_succ_of_lt (hi : i < a.size) : down? (turns + 1) a i =
    if (first a i hi).val = i then some a
    else down? turns (a.swap i (first a i hi) hi (first a i hi).isLt) (first a i hi) := by
  rw [down?, first?_of_lt hi, Option.bind_eq_bind, Option.bind_some, swap?,
    dif_pos ⟨hi, (first a i hi).isLt⟩]
  rfl

theorem down?_succ_of_le (hi : a.size ≤ i) : down? (turns + 1) a i = some a := by
  rw [down?, first?_of_le hi, Option.bind_eq_bind, Option.bind_some, if_pos rfl]
  rfl

/-- Each turn but the last one at least doubles the position counted from one, so that the loop
leaves the array unless it ends before. -/
theorem down?_eq_some (h : a.size < (i + 1) * 2 ^ turns) :
    down? (turns + 1) a i = some (down a i) := by
  induction turns generalizing a i with
  | zero =>
    have hout : a.size ≤ i := by omega
    rw [down?_succ_of_le hout, down, dif_neg (Nat.not_lt.mpr hout)]
  | succ turns ih =>
    by_cases hi : i < a.size
    · rw [down?_succ_of_lt hi, down, dif_pos hi]
      by_cases hc : (first a i hi).val = i
      · rw [if_pos hc, if_pos hc]
      · have hchild : 2 * (i + 1) ≤ (first a i hi).val + 1 := by
          have hor := first_eq_or a i hi
          omega
        rw [if_neg hc, if_neg hc]
        apply ih
        calc (a.swap i (first a i hi) hi (first a i hi).isLt).size = a.size := Array.size_swap
          _ < (i + 1) * 2 ^ (turns + 1) := h
          _ = 2 * (i + 1) * 2 ^ turns := by rw [Nat.pow_succ, Nat.mul_comm 2, Nat.mul_assoc,
              Nat.mul_comm 2]
          _ ≤ ((first a i hi).val + 1) * 2 ^ turns := Nat.mul_le_mul_right _ hchild
    · rw [down?_succ_of_le (Nat.not_lt.mp hi), down, dif_neg hi]

theorem heapify?_eq_some (h : a.size < 2 ^ turns) (n : Nat) :
    heapify? (turns + 1) a n = some (heapify a n) := by
  induction n generalizing a with
  | zero => rfl
  | succ n ih =>
    have hle : 2 ^ turns ≤ (n + 1) * 2 ^ turns := Nat.le_mul_of_pos_left _ (Nat.succ_pos n)
    have hdown : down? (turns + 1) a n = some (down a n) := down?_eq_some (by omega)
    rw [heapify?, hdown, heapify]
    apply ih
    rwa [size_down]

end Checked

/-! ### Repairs -/

variable [LinearOrder ι] {a : Array (Batch ι)} {i : Nat}

/-- The subtree is all that a sift from its root has to put in order. -/
theorem downOrder_of_orderedOn (h : OrderedOn (fun j => InSubtree i j ∧ j ≠ i) a) :
    DownOrder (InSubtree i) a i where
  apart j hpos hparent hne := h j hpos ⟨hparent, hne⟩
  across hpos hparent := absurd hparent (not_inSubtree_parent hpos)

/-- A sift away from the root repairs one position. Let the subtree at `i` be in order, but for the
entry at `i` itself. The loop ends once its turns have doubled `i + 1` beyond the size, and uses no
place outside the array; then the whole subtree is in order, the entries have changed places inside of
it only, and every place outside holds what it held before. So the loop over the parents, the last
of them first, puts any array in order. -/
theorem down_repairs_subtree (h : OrderedOn (fun j => InSubtree i j ∧ j ≠ i) a) :
    (∀ turns, a.size < (i + 1) * 2 ^ turns → down? (turns + 1) a i = some (down a i)) ∧
      OrderedOn (InSubtree i) (down a i) ∧ (down a i).size = a.size ∧
      Rearranges (InSubtree i) a (down a i) ∧
      (∀ j, ¬ InSubtree i j → (down a i)[j]? = a[j]?) ∧
      ∀ b : Array (Batch ι),
        (∀ turns, b.size < 2 ^ turns →
          heapify? (turns + 1) b (b.size / 2) = some (Heap.ofArray b).entries) ∧
        (Heap.ofArray b).Ordered ∧ (Heap.ofArray b).entries.toList.Perm b.toList := by
  have hmoves : Rearranges (InSubtree i) a (down a i) := rearranges_down a i
  refine ⟨fun turns => down?_eq_some, ?_, size_down a i, hmoves, fun j => hmoves.getElem?_eq, ?_⟩
  · exact orderedOn_down (downOrder_of_orderedOn h) fun j hpos hparent => .child hpos hparent
  · intro b
    exact ⟨fun turns hturns => heapify?_eq_some hturns _, Heap.ordered_ofArray b, heapify_perm b _⟩

/-- A subtree is repaired inside an array that is out of order elsewhere. -/
theorem down_repairs_subtree_of_second :
    let a : Array (Batch Nat) := #[⟨[⟨9, ""⟩]⟩, ⟨[⟨8, ""⟩]⟩, ⟨[⟨5, ""⟩]⟩, ⟨[⟨3, ""⟩]⟩, ⟨[⟨4, ""⟩]⟩,
      ⟨[⟨1, ""⟩]⟩, .empty, ⟨[⟨6, ""⟩]⟩]
    OrderedOn (fun j => InSubtree 1 j ∧ j ≠ 1) a ∧ a.size < (1 + 1) * 2 ^ 3 ∧ ¬ InSubtree 1 2 ∧
      down? (3 + 1) a 1 = some (down a 1) ∧ OrderedOn (InSubtree 1) (down a 1) ∧
      (down a 1)[2]? = a[2]? ∧
      (down a 1).toList.map Batch.lastId? =
        [some 9, some 3, some 5, some 6, some 4, some 1, none, some 8] := by
  intro a
  have htwo : ¬ InSubtree 1 2 := by
    intro h
    cases h with
    | child _ hparent => exact absurd hparent.le (by decide)
  have hordered : OrderedOn (fun j => InSubtree 1 j ∧ j ≠ 1) a := by
    rintro k hpos ⟨hsub, hne⟩
    by_cases hk : k < 8
    · -- of the parents inside the array only position 3 is in question
      have hle : 1 ≤ (k - 1) / 2 := hsub.le
      have hne' : (k - 1) / 2 ≠ 2 := fun h => htwo (h ▸ hsub)
      obtain rfl : k = 7 := by omega
      decide
    · have hout : rankAt a k = ⊤ := rankAt_of_le (Nat.not_lt.mp hk)
      rw [hout]
      exact le_top
  have hturns : a.size < (1 + 1) * 2 ^ 3 := by decide
  obtain ⟨hruns, hrepaired, -, -, houtside, -⟩ := down_repairs_subtree hordered
  exact ⟨hordered, hturns, htwo, hruns 3 hturns, hrepaired, houtside 2 htwo, by decide +kernel⟩

end Multicast.Sift
