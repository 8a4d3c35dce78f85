import Multicast.Gate
/-!
A bounded first-in first-out channel. A value that does not fit makes its sender wait; the waiting
senders go in the order in which they came. When the receiver is gone no value is taken any more.
-/

namespace Multicast

/-- A channel of values of type `α`. -/
structure Channel (α : Type) where
  /-- How many values the channel holds at most. -/
  capacity : Nat
  /-- The values that are waiting to be received, the oldest first. -/
  buffer : List α := []
  /-- The parties that are about to send, in the order of their turns. -/
  senders : List Party := []
  closed : Bool := false
  deriving Repr, Inhabited

namespace Channel

variable {α : Type}

/-- An empty channel with room for `n` values, and for one at least. -/
def ofCapacity (n : Nat) : Channel α where
  capacity := max n 1

def ask (c : Channel α) (p : Party) : Channel α := { c with senders := c.senders ++ [p] }

/-- Whether `p` need not wait any longer: it is its turn and there is room, or all hope is gone. -/
def mayGo (c : Channel α) (p : Party) : Bool :=
  c.closed || (c.senders.head? == some p && decide (c.buffer.length < c.capacity))

/-- Sends the value of a party that may go; the answer says whether the channel took it. -/
def send (c : Channel α) (p : Party) (a : α) : Channel α × Bool :=
  if c.closed then ({ c with senders := c.senders.erase p }, false)
  else ({ c with senders := c.senders.erase p, buffer := c.buffer ++ [a] }, true)

def giveUp (c : Channel α) (p : Party) : Channel α := { c with senders := c.senders.erase p }

/-- Receives the oldest value, if there is one. -/
def receive? (c : Channel α) : Option (α × Channel α) :=
  match c.buffer with
  | [] => none
  | a :: rest => some (a, { c with buffer := rest })

/-- Drops the receiver, and with it what it has not received. -/
def close (c : Channel α) : Channel α := { c with buffer := [], closed := true }

variable {c d : Channel α} {p : Party} {a : α}

theorem mayGo_of_closed (h : c.closed = true) : c.mayGo p = true := by
  rw [mayGo, h, Bool.true_or]

/-- As long as there is a receiver, a party may go when it is its turn and there is room. -/
theorem mayGo_iff_of_open (h : c.closed = false) :
    c.mayGo p = true ↔ c.senders.head? = some p ∧ c.buffer.length < c.capacity := by
  simp [mayGo, h]

theorem send_of_open (a : α) (h : c.closed = false) :
    c.send p a = ({ c with senders := c.senders.erase p, buffer := c.buffer ++ [a] }, true) := by
  simp [send, h]

theorem send_of_closed (a : α) (h : c.closed = true) :
    c.send p a = ({ c with senders := c.senders.erase p }, false) := by
  simp [send, h]

/-- The oldest value is received, and nothing else changes. -/
theorem exists_of_receive? (h : c.receive? = some (a, d)) :
    ∃ rest, c.buffer = a :: rest ∧ d = { c with buffer := rest } := by
  unfold receive? at h
  split at h
  · cases h
  · next rest hbuffer =>
    obtain ⟨rfl, rfl⟩ := Prod.mk.inj (Option.some.inj h)
    exact ⟨rest, hbuffer, rfl⟩

end Channel

end Multicast
