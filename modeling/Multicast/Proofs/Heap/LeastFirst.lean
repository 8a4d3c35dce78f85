import Mathlib.Algebra.Order.Group.Multiset
import Multicast.Proofs.Heap.Order

/-! A heap in use. Whatever is asked of it, a heap gives back what was put into it, the batch with the
least id first; so that the order in which it is drained does not depend on how it was filled. -/

namespace Multicast

/-- What can be asked of a heap. -/
inductive HeapCall (ι : Type)
  | push (b : Batch ι)
  | pop
  | peek
  | extractMin

/-- What a heap answers: a batch, none, or that the call was a mistake. -/
abbrev HeapAnswer (ι : Type) := Except HeapError (Option (Batch ι))

variable {ι : Type}

namespace HeapCall

/-- The batch that a call puts into the heap. -/
def pushed? : HeapCall ι → Option (Batch ι)
  | .push b => some b
  | .pop | .peek | .extractMin => none

/-- The batches that some calls put into the heap. -/
def pushed (calls : List (HeapCall ι)) : Multiset (Batch ι) := calls.filterMap pushed?

/-- What a call takes from the heap, if this is its answer. -/
def taken : HeapCall ι → HeapAnswer ι → Multiset (Batch ι)
  | .pop, .ok (some b) | .extractMin, .ok (some b) => {b}
  | _, _ => 0

theorem pushed_cons (c : HeapCall ι) (calls : List (HeapCall ι)) :
    pushed (c :: calls) = pushed [c] + pushed calls := by
  unfold pushed
  rw [Multiset.coe_add, ← List.filterMap_append, List.singleton_append]

theorem pushed_map_push (bs : List (Batch ι)) : pushed (bs.map HeapCall.push) = bs := by
  have hsome : pushed? ∘ HeapCall.push = (some : Batch ι → Option (Batch ι)) := rfl
  rw [pushed, List.filterMap_map, hsome, List.filterMap_some]

end HeapCall

namespace Heap

variable [LinearOrder ι]

/-- A heap that has not been used yet, with the batches that it was built of. -/
inductive Starts : Heap ι → Multiset (Batch ι) → Prop
  /-- The heap for which nothing else is asked. -/
  | new : Starts new 0
  | withCapacity (n : Nat) : Starts (withCapacity n) 0
  | ofArray (bs : Array (Batch ι)) : Starts (ofArray bs) bs.toList

/-- The answer to a call, and the heap afterwards. A call that is a mistake changes nothing. -/
def call (h : Heap ι) : HeapCall ι → HeapAnswer ι × Heap ι
  | .push b => (.ok none, h.push b)
  | .pop =>
    match h.pop? with
    | some (b, rest) => (.ok (some b), rest)
    | none => (.ok none, h)
  | .peek => (.ok h.peek?, h)
  | .extractMin =>
    match h.extractMin with
    | .ok (b, rest) => (.ok (some b), rest)
    | .error e => (.error e, h)

/-- The heap after some calls. -/
def after (h : Heap ι) (calls : List (HeapCall ι)) : Heap ι :=
  calls.foldl (fun h c => (h.call c).2) h

/-- What some calls take from a heap. -/
def takenBy (h : Heap ι) : List (HeapCall ι) → Multiset (Batch ι)
  | [] => 0
  | c :: rest => c.taken (h.call c).1 + (h.call c).2.takenBy rest

/-! ### One call -/

theorem Starts.ordered {h : Heap ι} {start : Multiset (Batch ι)} (hs : Starts h start) :
    h.Ordered := by
  cases hs with
  | new => exact ordered_withCapacity _
  | withCapacity n => exact ordered_withCapacity n
  | ofArray bs => exact ordered_ofArray bs

theorem Starts.contents {h : Heap ι} {start : Multiset (Batch ι)} (hs : Starts h start) :
    h.contents = start := by
  cases hs with
  | new => rfl
  | withCapacity n => rfl
  | ofArray bs => exact contents_ofArray bs

/-- A heap that holds something gives the least of it. -/
theorem Ordered.exists_pop? {h : Heap ι} (ho : h.Ordered) (hne : h.contents ≠ 0) :
    ∃ b rest, h.pop? = some (b, rest) ∧ h.peek? = some b ∧ rest.Ordered ∧
      h.contents = b ::ₘ rest.contents ∧ ∀ c ∈ h.contents, b.rank ≤ c.rank := by
  have hn : 0 < h.entries.size := by
    apply Nat.pos_of_ne_zero
    intro hsize
    apply hne
    rw [contents_eq_zero_iff, isEmpty, Array.isEmpty_iff_size_eq_zero]
    exact hsize
  obtain ⟨rest, hpop, _⟩ := pop?_of_pos h hn
  have hpeek : h.peek? = some h.entries[0] := Array.getElem?_eq_getElem hn
  exact ⟨h.entries[0], rest, hpop, hpeek, ho.pop? hpop, contents_of_pop? hpop,
    fun c hc => ho.root_le_of_mem hn hc⟩

/-- An empty heap has nothing to give, and stays as it is. -/
theorem call_of_empty {h : Heap ι} (he : h.contents = 0) :
    h.call .pop = (.ok none, h) ∧ h.call .peek = (.ok none, h) ∧
      h.call .extractMin = (.error .empty, h) := by
  have hpop : h.pop? = none := (pop?_eq_none_iff h).mpr he
  have hpeek : h.peek? = none := by
    rw [contents_eq_zero_iff, isEmpty, Array.isEmpty_iff_size_eq_zero] at he
    exact Array.getElem?_eq_none he.le
  refine ⟨?_, ?_, ?_⟩
  · rw [call, hpop]
  · rw [call, hpeek]
  · rw [call, extractMin, hpop]

/-- A heap that holds something answers with the least of it, and gives it away unless it was only
looked at. -/
theorem Ordered.call_of_nonempty {h : Heap ι} (ho : h.Ordered) (hne : h.contents ≠ 0) :
    ∃ b rest, h.call .pop = (.ok (some b), rest) ∧ h.call .extractMin = (.ok (some b), rest) ∧
      h.call .peek = (.ok (some b), h) ∧ h.contents = b ::ₘ rest.contents ∧
      ∀ c ∈ h.contents, b.rank ≤ c.rank := by
  obtain ⟨b, rest, hpop, hpeek, -, hcontents, hleast⟩ := ho.exists_pop? hne
  refine ⟨b, rest, ?_, ?_, ?_, hcontents, hleast⟩
  · rw [call, hpop]
  · rw [call, extractMin, hpop]
  · rw [call, hpeek]

/-- A call keeps the order of the heap and loses nothing. -/
theorem Ordered.call {h : Heap ι} (ho : h.Ordered) (c : HeapCall ι) :
    (h.call c).2.Ordered ∧
      h.contents + HeapCall.pushed [c] = c.taken (h.call c).1 + (h.call c).2.contents := by
  cases c with
  | push b =>
    refine ⟨ho.push b, ?_⟩
    calc h.contents + HeapCall.pushed [.push b] = h.contents + {b} := rfl
      _ = b ::ₘ h.contents := by rw [add_comm, Multiset.singleton_add]
      _ = 0 + (h.push b).contents := by rw [zero_add, contents_push]
  | peek => exact ⟨ho, add_comm _ _⟩
  | pop =>
    by_cases he : h.contents = 0
    · rw [(call_of_empty he).1]
      exact ⟨ho, add_comm _ _⟩
    · obtain ⟨b, rest, hpop, -, hrest, hcontents, -⟩ := ho.exists_pop? he
      rw [Heap.call, hpop, hcontents]
      exact ⟨hrest, add_zero _⟩
  | extractMin =>
    by_cases he : h.contents = 0
    · rw [(call_of_empty he).2.2]
      exact ⟨ho, add_comm _ _⟩
    · obtain ⟨b, rest, hpop, -, hrest, hcontents, -⟩ := ho.exists_pop? he
      rw [Heap.call, extractMin, hpop, hcontents]
      exact ⟨hrest, add_zero _⟩

/-! ### Many calls -/

theorem after_cons (h : Heap ι) (c : HeapCall ι) (calls : List (HeapCall ι)) :
    h.after (c :: calls) = (h.call c).2.after calls := rfl

/-- Nothing is taken while batches are pushed one by one. -/
theorem takenBy_map_push (h : Heap ι) (bs : List (Batch ι)) : h.takenBy (bs.map .push) = 0 := by
  induction bs generalizing h with
  | nil => rfl
  | cons b rest ih => exact (zero_add _).trans (ih _)

/-- In the course of some calls a heap stays in order, and holds what it held before and what was
pushed, without what was taken. -/
theorem Ordered.after {h : Heap ι} (ho : h.Ordered) (calls : List (HeapCall ι)) :
    (h.after calls).Ordered ∧
      h.contents + HeapCall.pushed calls = h.takenBy calls + (h.after calls).contents := by
  induction calls generalizing h with
  | nil => exact ⟨ho, add_comm _ _⟩
  | cons c rest ih =>
    obtain ⟨hnext, hbalance⟩ := ho.call c
    obtain ⟨hlast, hrest⟩ := ih hnext
    refine ⟨hlast, ?_⟩
    calc h.contents + HeapCall.pushed (c :: rest)
        = (h.contents + HeapCall.pushed [c]) + HeapCall.pushed rest := by
          rw [HeapCall.pushed_cons, add_assoc]
      _ = c.taken (h.call c).1 + ((h.call c).2.contents + HeapCall.pushed rest) := by
          rw [hbalance, add_assoc]
      _ = c.taken (h.call c).1 + ((h.call c).2.takenBy rest + ((h.call c).2.after rest).contents) :=
          by rw [hrest]
      _ = h.takenBy (c :: rest) + (h.after (c :: rest)).contents := by
          rw [takenBy, after_cons, add_assoc]

/-! ### Draining -/

/-- As many batches as there are come out in order, and all of them. -/
theorem Ordered.popMany {h : Heap ι} (ho : h.Ordered) {n : Nat} (hn : h.size = n) :
    (((h.popMany n).1.filterMap id : List (Batch ι)) : Multiset (Batch ι)) = h.contents ∧
      ((h.popMany n).1.filterMap id).Pairwise (fun b c => b.rank ≤ c.rank) := by
  induction n generalizing h with
  | zero =>
    have hcard : h.contents.card = 0 := (card_contents h).trans hn
    exact ⟨(Multiset.card_eq_zero.mp hcard).symm, .nil⟩
  | succ n ih =>
    have hne : h.contents ≠ 0 := by
      intro he
      have hcard : h.contents.card = n + 1 := (card_contents h).trans hn
      rw [he, Multiset.card_zero] at hcard
      omega
    obtain ⟨b, rest, hpop, -, hrest, hcontents, hleast⟩ := ho.exists_pop? hne
    have hsize : rest.size = n := by
      have hcard : h.contents.card = rest.contents.card + 1 := by
        rw [hcontents, Multiset.card_cons]
      rw [card_contents, card_contents] at hcard
      omega
    obtain ⟨hall, hsorted⟩ := ih hrest hsize
    have hstep : (h.popMany (n + 1)).1.filterMap id = b :: (rest.popMany n).1.filterMap id := by
      rw [Heap.popMany, hpop]
      rfl
    rw [hstep]
    refine ⟨?_, List.pairwise_cons.mpr ⟨?_, hsorted⟩⟩
    · rw [← Multiset.cons_coe, hall, hcontents]
    · -- what comes out later was pending when the least batch was taken
      intro c hc
      apply hleast
      rw [hcontents, ← hall]
      exact Multiset.mem_cons_of_mem hc

/-- A heap that is drained gives all that it holds, in order. -/
theorem Ordered.drain {h : Heap ι} (ho : h.Ordered) :
    (h.drain.1 : Multiset (Batch ι)) = h.contents ∧
      (h.drain.1.map Batch.rank).Pairwise (· ≤ ·) := by
  obtain ⟨hall, hsorted⟩ := ho.popMany rfl
  exact ⟨hall, List.pairwise_map.mpr hsorted⟩

/-- The ids that come out depend on what the heap holds alone. -/
theorem Ordered.drain_ranks_eq {h h' : Heap ι} (ho : h.Ordered) (ho' : h'.Ordered)
    (he : h.contents = h'.contents) : h.drain.1.map Batch.rank = h'.drain.1.map Batch.rank := by
  obtain ⟨hall, hsorted⟩ := ho.drain
  obtain ⟨hall', hsorted'⟩ := ho'.drain
  have hperm : h.drain.1.Perm h'.drain.1 := by
    apply Multiset.coe_eq_coe.mp
    rw [hall, hall', he]
  exact (hperm.map Batch.rank).eq_of_pairwise (fun _ _ _ _ => le_antisymm) hsorted hsorted'

/-- A heap is a multiset that gives its least batch first. After any calls on a heap that was just
built, its entries are in order; it holds what it was built of and what was pushed, without what was
taken; only when it holds nothing has it nothing to give, and then it stays as it is; otherwise it
answers with a batch that comes after none of the others. It is drained in order, and a heap that was
built of some batches gives the same ids as one into which they were pushed one by one. -/
theorem least_first {h : Heap ι} {start : Multiset (Batch ι)} (hs : Starts h start)
    (calls : List (HeapCall ι)) :
    let now := h.after calls
    now.Ordered ∧
      start + HeapCall.pushed calls = h.takenBy calls + now.contents ∧
      now.size = now.contents.card ∧
      (now.contents = 0 → now.call .pop = (.ok none, now) ∧ now.call .peek = (.ok none, now) ∧
        now.call .extractMin = (.error .empty, now)) ∧
      (now.contents ≠ 0 → ∃ b rest, now.call .pop = (.ok (some b), rest) ∧
        now.call .extractMin = (.ok (some b), rest) ∧ now.call .peek = (.ok (some b), now) ∧
        now.contents = b ::ₘ rest.contents ∧ ∀ c ∈ now.contents, b.rank ≤ c.rank) ∧
      (now.drain.1 : Multiset (Batch ι)) = now.contents ∧
      (now.drain.1.map Batch.rank).Pairwise (· ≤ ·) ∧
      ∀ (e : Heap ι) (bs : Array (Batch ι)), Starts e 0 →
        (ofArray bs).drain.1.map Batch.rank =
          (e.after (bs.toList.map .push)).drain.1.map Batch.rank := by
  intro now
  obtain ⟨ho, hbalance⟩ := hs.ordered.after calls
  rw [hs.contents] at hbalance
  obtain ⟨hall, hsorted⟩ := ho.drain
  refine ⟨ho, hbalance, (card_contents now).symm, call_of_empty, ho.call_of_nonempty, hall, hsorted,
    ?_⟩
  intro e bs he
  obtain ⟨hfilled, hheld⟩ := he.ordered.after (bs.toList.map .push)
  apply (ordered_ofArray bs).drain_ranks_eq hfilled
  rw [he.contents, zero_add, HeapCall.pushed_map_push, takenBy_map_push, zero_add] at hheld
  rw [contents_ofArray, hheld]

/-- Equal ids, a batch without items and a heap with a single child at the end: the least batch comes
out each time. -/
theorem least_first_of_ties :
    let h : Heap Nat := ofArray #[⟨[⟨7, "a"⟩]⟩, ⟨[⟨3, "b"⟩]⟩, .empty, ⟨[⟨3, "c"⟩]⟩]
    let calls : List (HeapCall Nat) := [.pop, .push ⟨[⟨9, ""⟩, ⟨3, "d"⟩]⟩, .extractMin, .peek]
    Starts h (#[⟨[⟨7, "a"⟩]⟩, ⟨[⟨3, "b"⟩]⟩, .empty, ⟨[⟨3, "c"⟩]⟩] : Array (Batch Nat)).toList ∧
      (h.after calls).drain.1.map Batch.lastId? = [some 3, some 3, some 7] ∧
      (h.after calls).Ordered := by
  intro h calls
  have hs : Starts h (#[⟨[⟨7, "a"⟩]⟩, ⟨[⟨3, "b"⟩]⟩, .empty, ⟨[⟨3, "c"⟩]⟩] :
    Array (Batch Nat)).toList := .ofArray _
  exact ⟨hs, by decide +kernel, (least_first hs calls).1⟩

end Heap

end Multicast
