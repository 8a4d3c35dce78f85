import Mathlib.Data.List.MinMax
import Multicast.Batch
import Multicast.Cursor

/-! Where a cursor moves to and what is stale there, and, for ids that are numbers, which ids may come
after the position at which it stands. -/

namespace Multicast

section General

variable {ι : Type} [LinearOrder ι]

/-- The maximum of a list is told by its members. -/
theorem max?_eq_of_mem_iff {l l' : List ι} (h : ∀ i, i ∈ l ↔ i ∈ l') : l.max? = l'.max? := by
  ext m
  simp only [List.max?_eq_some_iff, h]

/-- Of two ids in front of a list only the larger one matters for its maximum. -/
theorem max?_cons_cons (p i : ι) (l : List ι) : (p :: i :: l).max? = (max p i :: l).max? := by
  rw [List.max?_cons', List.max?_cons', List.foldl_cons]

theorem Cursor.position_advance (c : Cursor ι) (id : ι) :
    (c.advance id).1.position = some (c.position.elim id (max id)) := by
  obtain ⟨position⟩ := c
  cases position with
  | none => rfl
  | some p =>
    unfold Cursor.advance
    dsimp only
    split
    · rename_i h
      exact congrArg some (max_eq_left h.le).symm
    · rename_i h
      exact congrArg some (max_eq_right (not_lt.mp h)).symm

theorem Cursor.idIsStale_older_iff {p i : ι} : idIsStale .older p i = true ↔ i < p :=
  decide_eq_true_iff

theorem Cursor.idIsStale_notAfter_iff {p i : ι} : idIsStale .notAfter p i = true ↔ i ≤ p := by
  rw [idIsStale, Bool.not_eq_true', decide_eq_false_iff_not, not_lt]

theorem Cursor.isStale_eq_true_iff {c : Cursor ι} {policy : StalePolicy} {ids : List ι} :
    c.isStale policy ids = true ↔
      ids ≠ [] ∧ ∃ p, c.position = some p ∧ ∀ i ∈ ids, idIsStale policy p i = true := by
  rw [isStale]
  cases c.position with
  | none => simp
  | some p => simp

end General

/-- Whether data with the id `j` may be written after data with the id `i`. -/
def StalePolicy.Follows : StalePolicy → Nat → Nat → Prop
  | .older, i, j => i ≤ j
  | .notAfter, i, j => i < j

/-- What may follow a larger id may follow a smaller one. -/
theorem StalePolicy.Follows.of_le {policy : StalePolicy} {i p j : Nat} (h : policy.Follows p j)
    (hle : i ≤ p) : policy.Follows i j := by
  cases policy with
  | older => exact Nat.le_trans hle h
  | notAfter => exact Nat.lt_of_le_of_lt hle h

/-- What may come after an id may be followed by a larger one in its place. -/
theorem StalePolicy.Follows.mono {policy : StalePolicy} {p i j : Nat} (h : policy.Follows p i)
    (hle : i ≤ j) : policy.Follows p j := by
  cases policy with
  | older => exact Nat.le_trans h hle
  | notAfter => exact Nat.lt_of_lt_of_le h hle

theorem Batch.lastId?_eq_getLast? (b : Batch Nat) : b.lastId? = b.ids.getLast? := by
  rw [Batch.lastId?, Batch.ids, List.getLast?_map]

theorem le_getLast_of_pairwise {ids : List Nat} (h : ids.Pairwise (· ≤ ·)) (hne : ids ≠ [])
    {i : Nat} (hi : i ∈ ids) : i ≤ ids.getLast hne := by
  rw [← List.dropLast_append_getLast hne] at h hi
  rcases List.mem_append.mp hi with hi | hi
  · exact (List.pairwise_append.mp h).2.2 i hi _ (List.mem_singleton.mpr rfl)
  · exact Nat.le_of_eq (List.mem_singleton.mp hi)

theorem Cursor.idIsStale_eq_false_iff (policy : StalePolicy) (p i : Nat) :
    Cursor.idIsStale policy p i = false ↔ policy.Follows p i := by
  cases policy with
  | older => simp [Cursor.idIsStale, StalePolicy.Follows]
  | notAfter => simp [Cursor.idIsStale, StalePolicy.Follows]

/-- Ids are not stale just if one of them may come after the position. -/
theorem Cursor.isStale_eq_false_iff (c : Cursor Nat) (policy : StalePolicy) {ids : List Nat}
    (hne : ids ≠ []) :
    c.isStale policy ids = false ↔ ∃ i ∈ ids, ∀ p, c.position = some p → policy.Follows p i := by
  obtain ⟨position⟩ := c
  cases position with
  | none =>
    obtain ⟨i, hi⟩ := List.exists_mem_of_ne_nil ids hne
    exact iff_of_true rfl ⟨i, hi, nofun⟩
  | some p =>
    have hempty : ids.isEmpty = false := List.isEmpty_eq_false_iff.mpr hne
    simp only [Cursor.isStale, hempty, Bool.not_false, Bool.true_and, List.all_eq_false,
      Option.some.injEq, forall_eq']
    refine exists_congr fun i => and_congr_right fun _ => ?_
    rw [← Cursor.idIsStale_eq_false_iff, Bool.not_eq_true]

end Multicast
