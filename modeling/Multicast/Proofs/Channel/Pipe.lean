import Multicast.Proofs.Channel.Outlet

/-! A channel with its writers, seen alone. What one step keeps is kept for ever: whatever was
written has been received or is in the buffer, in the order of the writes, and nobody waits for
nothing. -/

namespace Multicast

open Function (update)

/-- The frame of a write. -/
def WriteMark.frame : WriteMark → Batch Nat
  | .begun _ frame | .written _ frame | .crashed _ frame => frame

/-- The frames of the writes in a log, the first write first. -/
def WriteMark.frames (log : List WriteMark) : List (Batch Nat) := log.reverse.map frame

/-- The channel of a subscriber, and the writes to it. -/
structure Pipe where
  channel : Channel (Batch Nat)
  /-- The writes that the parties have under way. -/
  writes : Party → Option Delivery
  /-- The writes that have succeeded, the latest first. -/
  written : List WriteMark
  /-- Why writes have failed, the latest first. -/
  failures : List SinkError

namespace Pipe

/-- What can reach a pipe at once. -/
inductive Move
  /-- A party that delivers goes on. -/
  | deliver
  | receive (b : Batch Nat)
  /-- The receiver is dropped. -/
  | drop

/-- What is received in a move. -/
def Move.received : Move → List (Batch Nat)
  | .receive b => [b]
  | .deliver | .drop => []

/-- Whether the receiver is dropped in a move. -/
def Move.drops : Move → Bool
  | .drop => true
  | .deliver | .receive _ => false

/-- What a move can make of a pipe. A frame is what a batch is processed into, and only a call that
crashes gives a write up. -/
inductive Step (processed : Batch Nat → Prop) (crashes : Nat → Prop) (t : Pipe) : Move → Pipe → Prop
  /-- A party begins to write, and no other does. -/
  | begin (p : Party) (d : Delivery) (hd : d.point = .writing .sending)
      (hframe : processed d.frame) (hidle : ∀ q, t.writes q = none) :
      Step processed crashes t .deliver { t with
        channel := t.channel.ask p
        writes := update t.writes p (some d) }
  /-- There is room for the frame of a write. -/
  | send (p : Party) (d : Delivery) (hp : t.writes p = some d) (hopen : t.channel.closed = false)
      (hroom : t.channel.buffer.length < t.channel.capacity) :
      Step processed crashes t .deliver { t with
        channel := (t.channel.send p d.frame).1
        writes := update t.writes p none
        written := .written d.keepAlive d.frame :: t.written }
  /-- The receiver is gone. -/
  | refuse (p : Party) (d : Delivery) (hp : t.writes p = some d)
      (hclosed : t.channel.closed = true) :
      Step processed crashes t .deliver { t with
        channel := (t.channel.send p d.frame).1
        writes := update t.writes p none
        failures := .closed :: t.failures }
  | giveUp (i : Nat) (d : Delivery) (hi : t.writes (.call i) = some d) (hcrash : crashes i) :
      Step processed crashes t .deliver { t with
        channel := t.channel.giveUp (.call i)
        writes := update t.writes (.call i) none }
  | receive (b : Batch Nat) (c : Channel (Batch Nat)) (hc : t.channel.receive? = some (b, c)) :
      Step processed crashes t (.receive b) { t with channel := c }
  | close : Step processed crashes t .drop { t with channel := t.channel.close }

/-- Room for `n` values is kept to, and for one at least; and whoever writes waits for its turn at
the channel, and nobody else does. -/
structure Tight (n : Nat) (t : Pipe) : Prop where
  capacity : t.channel.capacity = max n 1
  bound : t.channel.buffer.length ≤ max n 1
  writes : ∀ p d, t.writes p = some d →
    d.point = .writing .sending ∧ t.channel.senders = [p] ∧ ∀ q, q ≠ p → t.writes q = none
  idle : (∀ p, t.writes p = none) → t.channel.senders = []

/-- As long as there is a receiver, what was received is followed in the buffer by what else was
written. -/
def Accounts (received : List (Batch Nat)) (t : Pipe) : Prop :=
  t.channel.closed = false → received ++ t.channel.buffer = WriteMark.frames t.written

/-- The frames that are written, or were, are what batches are processed into. -/
structure Genuine (processed : Batch Nat → Prop) (t : Pipe) : Prop where
  writes : ∀ p d, t.writes p = some d → processed d.frame
  written : ∀ mark ∈ t.written, processed mark.frame

/-- What is so of a pipe with room for `n` values in the course of a run. -/
structure Faithful (processed : Batch Nat → Prop) (n : Nat) (received : List (Batch Nat))
    (dropped : Bool) (t : Pipe) : Prop where
  tight : t.Tight n
  genuine : t.Genuine processed
  accounts : t.Accounts received
  closed : t.channel.closed = dropped

variable {n : Nat} {t t' : Pipe} {m : Move} {received : List (Batch Nat)}
  {processed : Batch Nat → Prop} {crashes : Nat → Prop}

/-! ### What one step keeps -/

/-- When the only party that writes has come to its end, nobody writes. -/
theorem Tight.idle_of_end (h : t.Tight n) {p : Party} {d : Delivery} (hp : t.writes p = some d)
    (q : Party) : update t.writes p none q = none := by
  by_cases hq : q = p
  · rw [hq, Function.update_self]
  · rw [Function.update_of_ne hq]
    exact (h.writes p d hp).2.2 q hq

/-- A write has come to its end, and its party has left the channel. -/
theorem Tight.ended (h : t.Tight n) {p : Party} {d : Delivery} (hp : t.writes p = some d)
    (c : Channel (Batch Nat)) (hcapacity : c.capacity = max n 1)
    (hbound : c.buffer.length ≤ max n 1) (hsenders : c.senders = t.channel.senders.erase p)
    (written : List WriteMark) (failures : List SinkError) :
    Tight n ⟨c, update t.writes p none, written, failures⟩ where
  capacity := hcapacity
  bound := hbound
  writes q e (he : update t.writes p none q = some e) := by
    rw [h.idle_of_end hp q] at he
    cases he
  idle _ := by
    rw [hsenders, (h.writes p d hp).2.1, List.erase_cons_head]

theorem Tight.begun (h : t.Tight n) {p : Party} {d : Delivery} (hd : d.point = .writing .sending)
    (hidle : ∀ q, t.writes q = none) :
    Tight n { t with channel := t.channel.ask p, writes := update t.writes p (some d) } where
  capacity := h.capacity
  bound := h.bound
  writes q e (he : update t.writes p (some d) q = some e) := by
    have hq : q = p := by
      by_contra hne
      rw [Function.update_of_ne hne, hidle q] at he
      cases he
    subst hq
    rw [Function.update_self] at he
    obtain rfl := Option.some.inj he
    have hsenders : t.channel.senders ++ [q] = [q] := by rw [h.idle hidle, List.nil_append]
    refine ⟨hd, hsenders, fun q' hq' => ?_⟩
    show update t.writes q (some d) q' = none
    rw [Function.update_of_ne hq', hidle q']
  idle hnone := by
    have hp : update t.writes p (some d) p = none := hnone p
    rw [Function.update_self] at hp
    cases hp

theorem Tight.step (h : t.Tight n) (hstep : t.Step processed crashes m t') : t'.Tight n := by
  cases hstep with
  | begin p d hd hframe hidle => exact h.begun hd hidle
  | send p d hp hopen hroom =>
    have hsend := Channel.send_of_open (p := p) d.frame hopen
    refine h.ended hp (t.channel.send p d.frame).1 ?_ ?_ ?_ _ _
    · rw [hsend]
      exact h.capacity
    · rw [hsend, List.length_append, List.length_singleton, ← h.capacity]
      exact hroom
    · rw [hsend]
  | refuse p d hp hclosed =>
    have hsend := Channel.send_of_closed (p := p) d.frame hclosed
    refine h.ended hp (t.channel.send p d.frame).1 ?_ ?_ ?_ _ _
    · rw [hsend]
      exact h.capacity
    · rw [hsend]
      exact h.bound
    · rw [hsend]
  | giveUp i d hi => exact h.ended hi (t.channel.giveUp (.call i)) h.capacity h.bound rfl _ _
  | receive b c hc =>
    obtain ⟨rest, hbuffer, rfl⟩ := Channel.exists_of_receive? hc
    refine ⟨h.capacity, ?_, h.writes, h.idle⟩
    have hbound := h.bound
    rw [hbuffer, List.length_cons] at hbound
    exact Nat.le_of_succ_le hbound
  | close => exact ⟨h.capacity, Nat.zero_le _, h.writes, h.idle⟩

theorem frames_cons (mark : WriteMark) (log : List WriteMark) :
    WriteMark.frames (mark :: log) = WriteMark.frames log ++ [mark.frame] := by
  simp [WriteMark.frames]

/-- A channel stays closed, and what was written to it stays the same. -/
theorem Step.closed (hstep : t.Step processed crashes m t') (h : t.channel.closed = true) :
    t'.channel.closed = true ∧ t'.written = t.written := by
  cases hstep with
  | begin | giveUp | close => exact ⟨by first | exact h | rfl, rfl⟩
  | send p d hp hopen hroom => exact absurd h (Bool.eq_false_iff.mp hopen)
  | refuse p d hp hclosed =>
    rw [Channel.send_of_closed d.frame hclosed]
    exact ⟨h, rfl⟩
  | receive b c hc =>
    obtain ⟨rest, -, rfl⟩ := Channel.exists_of_receive? hc
    exact ⟨h, rfl⟩

/-- What is received comes off the front of the buffer, and what is written goes to its end. -/
theorem Accounts.step (h : t.Accounts received) (hstep : t.Step processed crashes m t') :
    t'.Accounts (received ++ m.received) := by
  intro hopen'
  have hopen : t.channel.closed = false := by
    by_contra hclosed
    exact absurd (hstep.closed (Bool.eq_true_of_not_eq_false hclosed)).1
      (Bool.eq_false_iff.mp hopen')
  have hsame := h hopen
  cases hstep with
  | begin | giveUp => rwa [Move.received, List.append_nil]
  | send p d hp hopen hroom =>
    rw [Channel.send_of_open d.frame hopen, Move.received, List.append_nil, frames_cons, ← hsame,
      List.append_assoc]
    rfl
  | refuse p d hp hclosed => exact absurd hclosed (Bool.eq_false_iff.mp hopen)
  | receive b c hc =>
    obtain ⟨rest, hbuffer, rfl⟩ := Channel.exists_of_receive? hc
    rw [hbuffer] at hsame
    rw [Move.received, List.append_assoc]
    exact hsame
  | close => cases hopen'

theorem Genuine.step (h : t.Genuine processed) (hstep : t.Step processed crashes m t') :
    t'.Genuine processed := by
  have hended {p : Party} (q : Party) (e : Delivery) (he : update t.writes p none q = some e) :
      processed e.frame := by
    by_cases hq : q = p
    · rw [hq, Function.update_self] at he
      cases he
    · rw [Function.update_of_ne hq] at he
      exact h.writes q e he
  cases hstep with
  | begin p d hd hframe hidle =>
    refine ⟨fun q e (he : update t.writes p (some d) q = some e) => ?_, h.written⟩
    by_cases hq : q = p
    · rw [hq, Function.update_self] at he
      obtain rfl := Option.some.inj he
      exact hframe
    · rw [Function.update_of_ne hq] at he
      exact h.writes q e he
  | send p d hp hopen hroom =>
    refine ⟨hended, fun mark hmark => ?_⟩
    rcases List.mem_cons.mp hmark with rfl | hmark
    · exact h.writes p d hp
    · exact h.written mark hmark
  | refuse p d hp hclosed => exact ⟨hended, h.written⟩
  | giveUp i d hi hcrash => exact ⟨hended, h.written⟩
  | receive | close => exact ⟨h.writes, h.written⟩

/-- The drop of the receiver closes the channel, and nothing else does. -/
theorem Step.closed_eq (hstep : t.Step processed crashes m t') :
    t'.channel.closed = (t.channel.closed || m.drops) := by
  cases hstep with
  | begin | giveUp => exact (Bool.or_false _).symm
  | send p d hp hopen hroom =>
    rw [Channel.send_of_open d.frame hopen]
    exact (Bool.or_false _).symm
  | refuse p d hp hclosed =>
    rw [Channel.send_of_closed d.frame hclosed]
    exact (Bool.or_false _).symm
  | receive b c hc =>
    obtain ⟨rest, -, rfl⟩ := Channel.exists_of_receive? hc
    exact (Bool.or_false _).symm
  | close => exact (Bool.or_true _).symm

theorem Faithful.step {dropped : Bool} (h : t.Faithful processed n received dropped)
    (hstep : t.Step processed crashes m t') :
    t'.Faithful processed n (received ++ m.received) (dropped || m.drops) where
  tight := h.tight.step hstep
  genuine := h.genuine.step hstep
  accounts := h.accounts.step hstep
  closed := by rw [hstep.closed_eq, h.closed]

/-- As long as a channel is full, a write to it waits, and no delivery changes anything; only a call
that crashes leaves. -/
theorem Tight.step_of_full (h : t.Tight n) {p : Party} {d : Delivery} (hp : t.writes p = some d)
    (hopen : t.channel.closed = false) (hfull : t.channel.capacity ≤ t.channel.buffer.length)
    (hstep : t.Step processed crashes .deliver t') :
    t'.channel.buffer = t.channel.buffer ∧ t'.written = t.written ∧ t'.failures = t.failures ∧
      ∃ i, p = .call i ∧ crashes i := by
  cases hstep with
  | begin q e he hframe hidle =>
    rw [hidle p] at hp
    cases hp
  | send q e hq hopen' hroom => exact absurd hroom (Nat.not_lt.mpr hfull)
  | refuse q e hq hclosed => exact absurd hclosed (Bool.eq_false_iff.mp hopen)
  | giveUp i e hi hcrash =>
    refine ⟨rfl, rfl, rfl, i, ?_, hcrash⟩
    by_contra hne
    rw [(h.writes _ _ hi).2.2 p hne] at hp
    cases hp

/-- A write to a channel that is closed is under way still, or has failed, or its call has
crashed. -/
theorem Tight.step_of_closed (h : t.Tight n) {p : Party} {d : Delivery} (hp : t.writes p = some d)
    (hclosed : t.channel.closed = true) (hstep : t.Step processed crashes m t') :
    t'.writes p = some d ∨ t'.failures = .closed :: t.failures ∨
      ∃ i, p = .call i ∧ crashes i := by
  cases hstep with
  | begin q e he hframe hidle =>
    rw [hidle p] at hp
    cases hp
  | send q e hq hopen hroom => exact absurd hclosed (Bool.eq_false_iff.mp hopen)
  | refuse q e hq hclosed' => exact .inr (.inl rfl)
  | giveUp i e hi hcrash =>
    refine .inr (.inr ⟨i, ?_, hcrash⟩)
    by_contra hne
    rw [(h.writes _ _ hi).2.2 p hne] at hp
    cases hp
  | receive | close => exact .inl hp

end Pipe

end Multicast
