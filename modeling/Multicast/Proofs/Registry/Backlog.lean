import Mathlib.Data.Multiset.Dedup
import Mathlib.Data.Multiset.Sort
import Multicast.Proofs.Cursor
import Multicast.Proofs.Heap.LeastFirst
import Multicast.Session

/-! What becomes of a backlog of batches with one item each. They come in the order of their ids,
and each one is written or skipped as the cursor decides that the writes before it have moved; so
that what is written can be told from the ids and from where the cursor stood in the beginning. -/

namespace Multicast

namespace StalePolicy

/-- Whether an id is not stale where the cursor stands at `c`. -/
def Passes (policy : StalePolicy) (c : Option Nat) (id : Nat) : Prop :=
  ∀ p, c = some p → policy.Follows p id

instance (policy : StalePolicy) (i j : Nat) : Decidable (policy.Follows i j) :=
  match policy with
  | .older => inferInstanceAs (Decidable (i ≤ j))
  | .notAfter => inferInstanceAs (Decidable (i < j))

instance (policy : StalePolicy) (c : Option Nat) (id : Nat) : Decidable (policy.Passes c id) :=
  match c with
  | none => .isTrue nofun
  | some p => decidable_of_iff (policy.Follows p id)
    ⟨fun h _ hq => Option.some.inj hq ▸ h, fun h => h p rfl⟩

/-- The ids of a backlog that are to be written, in this order, where the cursor stands at `c`:
those that are not below the cursor, each as often as it comes; or those that are above it, each of
them once. -/
def due (policy : StalePolicy) (c : Option Nat) (ids : Multiset Nat) : List Nat :=
  match policy with
  | .older => (ids.filter (policy.Passes c)).sort (· ≤ ·)
  | .notAfter => (ids.filter (policy.Passes c)).dedup.sort (· ≤ ·)

variable {policy : StalePolicy} {c : Option Nat} {i j p : Nat} {ids : Multiset Nat}

theorem Follows.le (h : policy.Follows p i) : p ≤ i := by
  cases policy with
  | older => exact h
  | notAfter => exact Nat.le_of_lt h

theorem le_of_not_follows (h : ¬ policy.Follows p i) : i ≤ p := by
  cases policy with
  | older => exact Nat.le_of_not_le h
  | notAfter => exact Nat.le_of_not_lt h

theorem Passes.of_le (h : policy.Passes c i) (hij : i ≤ j) : policy.Passes c j :=
  fun p hp => (h p hp).mono hij

theorem exists_ge_of_not_passes (h : ¬ policy.Passes c i) : ∃ p, c = some p ∧ i ≤ p := by
  obtain ⟨p, hp⟩ := not_forall.mp h
  obtain ⟨hc, hfollows⟩ := Classical.not_imp.mp hp
  exact ⟨p, hc, le_of_not_follows hfollows⟩

/-- An id that is stale is not due. -/
theorem due_cons_of_stale (hi : ¬ policy.Passes c i) :
    policy.due c (i ::ₘ ids) = policy.due c ids := by
  have hfilter := Multiset.filter_cons_of_neg (p := policy.Passes c) ids hi
  cases policy with
  | older => exact congrArg (fun s : Multiset Nat => s.sort (· ≤ ·)) hfilter
  | notAfter => exact congrArg (fun s : Multiset Nat => s.dedup.sort (· ≤ ·)) hfilter

/-- The least id is due first if it is not stale, and then the cursor stands at it. -/
theorem due_cons_of_passes (hi : policy.Passes c i) (hleast : ∀ j ∈ ids, i ≤ j) :
    policy.due c (i ::ₘ ids) = i :: policy.due (some i) ids := by
  have hfilter := Multiset.filter_cons_of_pos (p := policy.Passes c) ids hi
  cases policy with
  | older =>
    -- whatever is left passes the cursor, before the write and after it
    have hrest : ids.filter (older.Passes c) = ids.filter (older.Passes (some i)) := by
      apply Multiset.filter_congr
      intro j hj
      have hij := hleast j hj
      exact iff_of_true (hi.of_le hij) fun p hp => Option.some.inj hp ▸ hij
    have hall : ∀ j ∈ ids.filter (older.Passes (some i)), i ≤ j :=
      fun j hj => hleast j (Multiset.mem_of_mem_filter hj)
    calc older.due c (i ::ₘ ids)
        = (i ::ₘ ids.filter (older.Passes c)).sort (· ≤ ·) :=
          congrArg (fun s : Multiset Nat => s.sort (· ≤ ·)) hfilter
      _ = (i ::ₘ ids.filter (older.Passes (some i))).sort (· ≤ ·) := by rw [hrest]
      _ = i :: older.due (some i) ids := Multiset.sort_cons _ _ _ hall
  | notAfter =>
    -- of what is left, only what is above the id is due once more
    have hrest : Multiset.dedup (i ::ₘ ids.filter (notAfter.Passes c)) =
        i ::ₘ Multiset.dedup (ids.filter (notAfter.Passes (some i))) := by
      have hnodup : (i ::ₘ Multiset.dedup (ids.filter (notAfter.Passes (some i)))).Nodup := by
        refine Multiset.nodup_cons.mpr ⟨?_, Multiset.nodup_dedup _⟩
        intro hmem
        have hpasses := Multiset.of_mem_filter (Multiset.mem_dedup.mp hmem)
        exact Nat.lt_irrefl i (hpasses i rfl)
      refine (Multiset.Nodup.ext (Multiset.nodup_dedup _) hnodup).mpr fun j => ?_
      rw [Multiset.mem_dedup, Multiset.mem_cons, Multiset.mem_cons, Multiset.mem_dedup,
        Multiset.mem_filter, Multiset.mem_filter]
      refine or_congr_right' fun hne => and_congr_right fun hj => ?_
      have hij := hleast j hj
      refine iff_of_true (hi.of_le hij) fun p hp => ?_
      obtain rfl := Option.some.inj hp
      exact Nat.lt_of_le_of_ne hij (Ne.symm hne)
    have hall : ∀ j ∈ Multiset.dedup (ids.filter (notAfter.Passes (some i))), i ≤ j := by
      intro j hj
      exact hleast j (Multiset.mem_of_mem_filter (Multiset.mem_dedup.mp hj))
    calc notAfter.due c (i ::ₘ ids)
        = (Multiset.dedup (i ::ₘ ids.filter (notAfter.Passes c))).sort (· ≤ ·) :=
          congrArg (fun s : Multiset Nat => s.dedup.sort (· ≤ ·)) hfilter
      _ = (i ::ₘ Multiset.dedup (ids.filter (notAfter.Passes (some i)))).sort (· ≤ ·) := by
          rw [hrest]
      _ = i :: notAfter.due (some i) ids := Multiset.sort_cons _ _ _ hall

@[simp] theorem due_zero (policy : StalePolicy) (c : Option Nat) : policy.due c 0 = [] := by
  cases policy <;> simp [due]

end StalePolicy

/-- Where the cursor stands when a batch has been written. -/
def Cursor.follow (c : Cursor Nat) (b : Batch Nat) : Cursor Nat :=
  match b.lastId? with
  | some id => (c.advance id).1
  | none => c

theorem Cursor.isStale_singleton (c : Cursor Nat) (policy : StalePolicy) (id : Nat) :
    c.isStale policy [id] = false ↔ policy.Passes c.position id := by
  rw [Cursor.isStale_eq_false_iff c policy (List.cons_ne_nil id [])]
  simp only [List.mem_singleton, exists_eq_left, StalePolicy.Passes]

/-- The cursor moves to an id that is not stale. -/
theorem Cursor.position_advance_of_passes {c : Cursor Nat} {policy : StalePolicy} {id : Nat}
    (h : policy.Passes c.position id) : (c.advance id).1.position = some id := by
  rw [Cursor.position_advance]
  cases hc : c.position with
  | none => rfl
  | some p => exact congrArg some (Nat.max_eq_left (h p hc).le)

theorem Batch.exists_item_of_size {b : Batch Nat} (h : b.size = 1) :
    ∃ item : Item Nat, b = .single item := by
  obtain ⟨item, hitem⟩ := List.length_eq_one_iff.mp h
  exact ⟨item, congrArg Batch.mk hitem⟩

/-- How far a backlog has been dealt with. -/
structure Service where
  /-- The batches that were written, in order. -/
  written : List (Batch Nat) := []
  skipped : Nat := 0
  cursor : Cursor Nat

/-- A backlog is dealt with as it should be: what was written and what is due of the rest is what
was due of all. -/
structure Service.OnCourse (policy : StalePolicy) (start : Cursor Nat) (all : List (Batch Nat))
    (v : Service) (rest : List (Batch Nat)) : Prop where
  single : ∀ b ∈ rest, b.size = 1
  due : v.written.flatMap Batch.ids ++ policy.due v.cursor.position (rest.flatMap Batch.ids) =
    policy.due start.position (all.flatMap Batch.ids)
  held : (v.written : Multiset (Batch Nat)) + rest ≤ all
  count : v.skipped + v.written.length + rest.length = all.length
  peak : (v.cursor.position.toList ++ rest.flatMap Batch.ids).max? =
    (start.position.toList ++ all.flatMap Batch.ids).max?

namespace Service.OnCourse

variable {policy : StalePolicy} {start : Cursor Nat} {all rest rest' : List (Batch Nat)}
  {v : Service} {b : Batch Nat}

theorem begin (hs : ∀ b ∈ all, b.size = 1) : OnCourse policy start all { cursor := start } all where
  single := hs
  due := rfl
  held := (zero_add _).le
  count := by simp
  peak := rfl

/-- The order of what is pending does not matter. -/
theorem perm (h : OnCourse policy start all v rest) (hp : rest.Perm rest') :
    OnCourse policy start all v rest' where
  single b hb := h.single b (hp.mem_iff.mpr hb)
  due := by
    have hids : ((rest'.flatMap Batch.ids : List Nat) : Multiset Nat) = rest.flatMap Batch.ids :=
      Multiset.coe_eq_coe.mpr (hp.symm.flatMap_right _)
    rw [hids]
    exact h.due
  held := by
    rw [← Multiset.coe_eq_coe.mpr hp]
    exact h.held
  count := by
    rw [← hp.length_eq]
    exact h.count
  peak := by
    rw [← h.peak]
    exact max?_eq_of_mem_iff fun _ => ((hp.symm.flatMap_right _).append_left _).mem_iff

/-- A batch that is stale is skipped. -/
theorem skip (h : OnCourse policy start all v (b :: rest))
    (hstale : v.cursor.isStale policy b.ids = true) :
    OnCourse policy start all { v with skipped := v.skipped + 1 } rest := by
  obtain ⟨item, rfl⟩ := Batch.exists_item_of_size (h.single b List.mem_cons_self)
  have hpasses : ¬ policy.Passes v.cursor.position item.id := by
    rw [← Cursor.isStale_singleton, Bool.not_eq_false]
    exact hstale
  have hids : (Batch.single item :: rest).flatMap Batch.ids = item.id :: rest.flatMap Batch.ids :=
    rfl
  refine ⟨fun d hd => h.single d (List.mem_cons_of_mem _ hd), ?_, ?_, ?_, ?_⟩
  · have hdue := h.due
    rw [hids, ← Multiset.cons_coe, StalePolicy.due_cons_of_stale hpasses] at hdue
    exact hdue
  · refine le_trans ?_ h.held
    rw [← Multiset.cons_coe]
    exact add_le_add_right (Multiset.le_cons_self _ _) _
  · have hcount := h.count
    rw [List.length_cons] at hcount
    dsimp only
    omega
  · -- the cursor stands at a position, and the id is not above it
    obtain ⟨p, hc, hle⟩ := StalePolicy.exists_ge_of_not_passes hpasses
    rw [← h.peak, hids]
    dsimp only
    rw [hc]
    show (p :: rest.flatMap Batch.ids).max? = (p :: item.id :: rest.flatMap Batch.ids).max?
    rw [max?_cons_cons, Nat.max_eq_left hle]

/-- The batch that comes first is written if it is not stale. -/
theorem write (h : OnCourse policy start all v (b :: rest))
    (hfresh : v.cursor.isStale policy b.ids = false) (hleast : ∀ d ∈ rest, b.rank ≤ d.rank) :
    OnCourse policy start all
      { v with written := v.written ++ [b], cursor := v.cursor.follow b } rest := by
  obtain ⟨item, rfl⟩ := Batch.exists_item_of_size (h.single b List.mem_cons_self)
  have hpasses : policy.Passes v.cursor.position item.id :=
    (Cursor.isStale_singleton _ _ _).mp hfresh
  have hids : (Batch.single item :: rest).flatMap Batch.ids = item.id :: rest.flatMap Batch.ids :=
    rfl
  have hmoved : (v.cursor.follow (.single item)).position = some item.id :=
    Cursor.position_advance_of_passes hpasses
  -- the ids of what is left are not below that of the batch
  have hids_le : ∀ j ∈ ((rest.flatMap Batch.ids : List Nat) : Multiset Nat), item.id ≤ j := by
    intro j hj
    obtain ⟨d, hd, hjd⟩ := List.mem_flatMap.mp (Multiset.mem_coe.mp hj)
    obtain ⟨other, rfl⟩ := Batch.exists_item_of_size (h.single d (List.mem_cons_of_mem _ hd))
    obtain rfl : j = other.id := List.mem_singleton.mp hjd
    exact WithBot.coe_le_coe.mp (hleast _ hd)
  refine ⟨fun d hd => h.single d (List.mem_cons_of_mem _ hd), ?_, ?_, ?_, ?_⟩
  · have hdue := h.due
    rw [hids, ← Multiset.cons_coe, StalePolicy.due_cons_of_passes hpasses hids_le] at hdue
    dsimp only
    rw [hmoved, ← hdue, List.flatMap_append, List.append_assoc]
    rfl
  · have hsame : ((v.written ++ [Batch.single item] : List (Batch Nat)) : Multiset (Batch Nat)) +
        rest = v.written + (Batch.single item :: rest : List (Batch Nat)) := by
      rw [Multiset.coe_add, Multiset.coe_add, List.append_assoc]
      rfl
    exact hsame.le.trans h.held
  · have hcount := h.count
    rw [List.length_cons] at hcount
    dsimp only
    rw [List.length_append, List.length_singleton]
    omega
  · dsimp only
    rw [← h.peak, hids, hmoved]
    cases hc : v.cursor.position with
    | none => rfl
    | some p =>
      have hle : p ≤ item.id := (hpasses p hc).le
      show (item.id :: rest.flatMap Batch.ids).max? = (p :: item.id :: rest.flatMap Batch.ids).max?
      rw [max?_cons_cons, Nat.max_eq_right hle]

/-- When nothing is left, what was due has been written. -/
theorem finish (h : OnCourse policy start all v []) :
    v.written.flatMap Batch.ids = policy.due start.position (all.flatMap Batch.ids) ∧
      (v.written : Multiset (Batch Nat)) ≤ all ∧ v.skipped + v.written.length = all.length ∧
      v.cursor.position = (start.position.toList ++ all.flatMap Batch.ids).max? := by
  refine ⟨?_, ?_, h.count, ?_⟩
  · rw [← h.due]
    simp
  · have hheld := h.held
    rwa [Multiset.coe_nil, add_zero] at hheld
  · rw [← h.peak]
    cases v.cursor.position <;> rfl

end Service.OnCourse

end Multicast
