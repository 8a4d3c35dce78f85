import Mathlib.Data.List.Perm.Basic
import Multicast.Demo.Tenant

/-! What the demonstration has for its subscribers, by sequence numbers. A subscriber is to see the
numbers that leave the same remainder as its place does when divided by the number of tenants. Those
up to the length of the history are sent to it at once; each turn of the producer announces the next
one, and every tenth also one of two rounds of the tenants before. -/

namespace Multicast

namespace Demo

variable {i j n s : Nat}

/-- The numbers among the given ones that are for a subscriber. -/
def share (i : Nat) (numbers : List Nat) : List Nat := numbers.filter fun s => s % 3 = i % 3

/-- The live batch of the event with the given number. -/
def liveBatch (s : Nat) : Batch Nat := .single (event s)

/-- The numbers that are new in the first turns of the producer. -/
def newNumbers (n : Nat) : List Nat := List.range' (historyLength + 1) n

/-- The numbers that are announced again in the first turns of the producer. -/
def repeats (n : Nat) : List Nat := ((newNumbers n).filter (· % 10 = 0)).map (· - lookBack)

/-- The numbers that are announced when the sequence has come to the given one. -/
def announcedAt (s : Nat) : List Nat := (published s).map Item.id

/-- The numbers that are announced in the first turns of the producer, in order. -/
def announced (n : Nat) : List Nat := (newNumbers n).flatMap announcedAt

/-! ### Tenants -/

theorem tenantOf_eq_iff : tenantOf s = tenantOf i ↔ s % 3 = i % 3 := by
  have hnames : ∀ a < 3, ∀ b < 3, tenants.getD a "" = tenants.getD b "" ↔ a = b := by
    decide +kernel
  exact hnames (s % 3) (Nat.mod_lt s (by decide)) (i % 3) (Nat.mod_lt i (by decide))

theorem tagged_event (i s : Nat) :
    Filter.tagged (tenantOf i) (event s) = decide (s % 3 = i % 3) := by
  rw [Bool.eq_iff_iff, decide_eq_true_iff, ← tenantOf_eq_iff, Filter.tagged, beq_iff_eq]
  rfl

theorem mem_share_iff {numbers : List Nat} :
    s ∈ share i numbers ↔ s ∈ numbers ∧ s % 3 = i % 3 := by
  simp [share]

theorem share_append (i : Nat) (numbers more : List Nat) :
    share i (numbers ++ more) = share i numbers ++ share i more := List.filter_append ..

/-! ### The history -/

theorem pastEvents_eq : pastEvents = (List.range' 1 historyLength).map event := by
  rw [List.range'_eq_map_range, List.map_map, pastEvents]
  exact List.map_congr_left fun n _ => congrArg event (Nat.add_comm n 1)

/-- The history of a subscriber holds the numbers that are for it, in order. -/
theorem backfill_eq (i : Nat) :
    backfill i = ⟨(share i (List.range' 1 historyLength)).map event⟩ := by
  rw [backfill, pastEvents_eq, List.filter_map, share]
  refine congrArg (fun numbers => Batch.mk (List.map event numbers)) ?_
  exact List.filter_congr fun s _ => tagged_event i s

/-- The last number of the history of a subscriber. -/
def lastPast (i : Nat) : Nat := (backfill i).lastId?.getD 0

theorem lastId?_backfill (i : Nat) :
    (backfill i).lastId? = some (lastPast i) ∧ lastPast i ≤ historyLength := by
  have hends : ∀ r < 3, ∃ s, (backfill r).lastId? = some s ∧ s ≤ historyLength := by
    decide +kernel
  have hplace : backfill i = backfill (i % 3) := by
    rw [backfill_eq, backfill_eq, share, share, Nat.mod_mod]
  obtain ⟨s, hs, hle⟩ := hends (i % 3) (Nat.mod_lt i (by decide))
  rw [lastPast, hplace, hs]
  exact ⟨rfl, hle⟩

theorem isPing_backfill (i : Nat) : (backfill i).isPing = false := by
  rw [← Bool.not_eq_true, ← Batch.lastId?_eq_none_iff, (lastId?_backfill i).1]
  exact nofun

/-! ### The turns of the producer -/

theorem announcedAt_eq (s : Nat) :
    announcedAt s = s :: if s % 10 = 0 then [s - lookBack] else [] := by
  unfold announcedAt published
  split <;> rfl

theorem published_eq (s : Nat) : published s = (announcedAt s).map event := by
  unfold announcedAt published
  split <;> rfl

theorem newNumbers_succ (n : Nat) : newNumbers (n + 1) = newNumbers n ++ [historyLength + 1 + n] :=
  List.range'_1_concat

theorem announced_succ (n : Nat) :
    announced (n + 1) = announced n ++ announcedAt (historyLength + 1 + n) := by
  rw [announced, newNumbers_succ, List.flatMap_append, List.flatMap_singleton]
  rfl

theorem mem_newNumbers_iff : s ∈ newNumbers n ↔ historyLength < s ∧ s ≤ historyLength + n := by
  rw [newNumbers, List.mem_range'_1]
  omega

theorem repeats_succ (n : Nat) : repeats (n + 1) = repeats n ++
    if (historyLength + 1 + n) % 10 = 0 then [historyLength + 1 + n - lookBack] else [] := by
  rw [repeats, newNumbers_succ, List.filter_append, List.map_append, repeats]
  split
  · next hten => rw [List.filter_cons_of_pos (by simpa using hten)]; rfl
  · next hten => rw [List.filter_cons_of_neg (by simpa using hten)]; rfl

/-- In the first turns all that is announced is new or comes again. -/
theorem announced_perm (n : Nat) : (announced n).Perm (newNumbers n ++ repeats n) := by
  induction n with
  | zero => exact .refl _
  | succ n ih =>
    rw [announced_succ, announcedAt_eq, newNumbers_succ, repeats_succ]
    generalize (if (historyLength + 1 + n) % 10 = 0 then _ else _ : List Nat) = again
    have hturn := ih.append_right ((historyLength + 1 + n) :: again)
    rw [List.append_assoc] at hturn
    -- the new number goes before those that come again
    refine hturn.trans ?_
    rw [List.append_assoc]
    exact List.perm_middle.append_left (newNumbers n)

theorem mem_repeats_iff : s ∈ repeats n ↔
    s + lookBack ∈ newNumbers n ∧ (s + lookBack) % 10 = 0 := by
  have hback : lookBack = 6 := rfl
  have hlength : historyLength = 30 := rfl
  simp only [repeats, List.mem_map, List.mem_filter, decide_eq_true_eq, mem_newNumbers_iff, hback,
    hlength]
  constructor
  · rintro ⟨t, ⟨⟨hlow, hhigh⟩, hten⟩, rfl⟩
    rw [Nat.sub_add_cancel (by omega)]
    exact ⟨⟨hlow, hhigh⟩, hten⟩
  · rintro ⟨hmem, hten⟩
    exact ⟨s + 6, ⟨hmem, hten⟩, Nat.add_sub_cancel ..⟩

/-- What comes again was new before, since the first number that does lies far enough on. -/
theorem mem_announced_iff : s ∈ announced n ↔ s ∈ newNumbers n := by
  have hback : lookBack = 6 := rfl
  have hlength : historyLength = 30 := rfl
  rw [(announced_perm n).mem_iff, List.mem_append, mem_repeats_iff]
  simp only [mem_newNumbers_iff, hback, hlength]
  omega

theorem share_announced_perm (i n : Nat) :
    (share i (announced n)).Perm (share i (newNumbers n) ++ share i (repeats n)) := by
  rw [← share_append]
  exact (announced_perm n).filter _

end Demo

end Multicast
