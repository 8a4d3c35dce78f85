import Multicast.Batch
/-!
The pending batches of one subscriber: a binary min-heap in an array, ordered by `Batch.before`.

The heap also keeps a capacity, which doubles when a full heap grows and falls back to its floor
when the last batch leaves. Batches with equal last ids leave in the order that the sifting below
gives them; the sifting is therefore part of what the heap promises.
-/

namespace Multicast

variable {ι : Type} [LT ι] [DecidableLT ι]

namespace Sift

/-- Moves the entry at `i` towards the root while it stands before its parent. -/
def up (a : Array (Batch ι)) (i : Nat) : Array (Batch ι) :=
  if h : 0 < i ∧ i < a.size then
    have hp : (i - 1) / 2 < a.size := by omega
    if a[i].before a[(i - 1) / 2] then up (a.swap i ((i - 1) / 2) h.2 hp) ((i - 1) / 2)
    else a
  else a
termination_by i
decreasing_by omega

/-- Position `j` if it is inside the array and its entry stands before that of `s`, else `s`. -/
def prefer (a : Array (Batch ι)) (s : Fin a.size) (j : Nat) : Fin a.size :=
  if hj : j < a.size then if a[j].before a[s] then ⟨j, hj⟩ else s else s

/-- Of `i` and its children the one whose entry stands first; `i` and then the left child win
ties. -/
def first (a : Array (Batch ι)) (i : Nat) (hi : i < a.size) : Fin a.size :=
  prefer a (prefer a ⟨i, hi⟩ (2 * i + 1)) (2 * i + 2)

theorem prefer_eq_or (a : Array (Batch ι)) (s : Fin a.size) (j : Nat) :
    prefer a s j = s ∨ (prefer a s j).val = j := by
  unfold prefer
  split
  · split
    · exact .inr rfl
    · exact .inl rfl
  · exact .inl rfl

/-- The first of the three is `i` itself or one of its children. -/
theorem first_eq_or (a : Array (Batch ι)) (i : Nat) (hi : i < a.size) :
    (first a i hi).val = i ∨ (first a i hi).val = 2 * i + 1 ∨ (first a i hi).val = 2 * i + 2 := by
  rcases prefer_eq_or a (prefer a ⟨i, hi⟩ (2 * i + 1)) (2 * i + 2) with h | h
  · rcases prefer_eq_or a ⟨i, hi⟩ (2 * i + 1) with h' | h'
    · left; rw [first, h, h']
    · right; left; rw [first, h, h']
  · right; right; exact h

/-- Moves the entry at `i` away from the root while one of its children stands before it. -/
def down (a : Array (Batch ι)) (i : Nat) : Array (Batch ι) :=
  if hi : i < a.size then
    let c := first a i hi
    if c.val = i then a else down (a.swap i c.val hi c.isLt) c.val
  else a
termination_by a.size - i
decreasing_by
  have := first_eq_or a i hi
  have := c.isLt
  simp only [Array.size_swap]
  omega

/-- Sifts down the entries `n - 1, …, 1, 0`, in this order. -/
def heapify (a : Array (Batch ι)) : Nat → Array (Batch ι)
  | 0 => a
  | n + 1 => heapify (down a n) n

end Sift

/-- A min-heap of batches with the bookkeeping of its capacity. -/
structure Heap (ι : Type) where
  /-- The pending batches; the children of position `i` are at `2 * i + 1` and `2 * i + 2`. -/
  entries : Array (Batch ι)
  /-- The number of batches that fit before the heap has to grow. -/
  capacity : Nat
  /-- The capacity to which an emptied heap returns. -/
  floor : Nat
  deriving Repr, Inhabited

/-- Taking from an empty heap is the caller's mistake. -/
inductive HeapError
  | empty
  deriving DecidableEq, Repr

def HeapError.message : HeapError → String
  | .empty => "extract_min called on an empty heap"

namespace Heap

/-- The capacity of a heap for which none is asked. -/
def defaultCapacity : Nat := 128

omit [LT ι] [DecidableLT ι] in
/-- An empty heap with room for `n` batches, and for one at least. -/
def withCapacity (n : Nat) : Heap ι := ⟨#[], max n 1, max n 1⟩

def new : Heap ι := withCapacity defaultCapacity

/-- The heap of the given batches, built from the last parent up to the root. -/
def ofArray (batches : Array (Batch ι)) : Heap ι where
  entries := Sift.heapify batches (batches.size / 2)
  capacity := max batches.size defaultCapacity
  floor := defaultCapacity

def size (h : Heap ι) : Nat := h.entries.size

def isEmpty (h : Heap ι) : Bool := h.entries.isEmpty

/-- The pending batches, in the order of the array. -/
def toList (h : Heap ι) : List (Batch ι) := h.entries.toList

def peek? (h : Heap ι) : Option (Batch ι) := h.entries[0]?

/-- Adds a batch; a full heap doubles its capacity first. -/
def push (h : Heap ι) (b : Batch ι) : Heap ι where
  entries := Sift.up (h.entries.push b) h.entries.size
  capacity := if h.entries.size = h.capacity then h.capacity * 2 else h.capacity
  floor := h.floor

/-- Takes the batch at the root: the last entry moves there and is sifted down. A heap that is
empty afterwards gives back what it had grown. -/
def pop? (h : Heap ι) : Option (Batch ι × Heap ι) :=
  if hn : 0 < h.entries.size then
    let rest := (h.entries.swap 0 (h.entries.size - 1) hn (by omega)).pop
    if rest.isEmpty then
      some (h.entries[0], { h with
        entries := rest
        capacity := if h.capacity > h.floor then h.floor else h.capacity })
    else
      some (h.entries[0], { h with entries := Sift.down rest 0 })
  else none

/-- Takes the batch at the root of a heap that must not be empty. -/
def extractMin (h : Heap ι) : Except HeapError (Batch ι × Heap ι) :=
  match h.pop? with
  | some r => .ok r
  | none => .error .empty

/-- Takes up to `n` times; an empty heap gives nothing and stays as it is. -/
def popMany (h : Heap ι) : Nat → List (Option (Batch ι)) × Heap ι
  | 0 => ([], h)
  | n + 1 =>
    match h.pop? with
    | some (b, rest) => let (bs, last) := rest.popMany n; (some b :: bs, last)
    | none => let (bs, last) := h.popMany n; (none :: bs, last)

/-- Takes batches until the heap is empty; each one taken leaves one fewer, so that many turns as
there are batches are enough. -/
def drain (h : Heap ι) : List (Batch ι) × Heap ι :=
  let (taken, rest) := h.popMany h.size
  (taken.filterMap id, rest)

end Heap

end Multicast
