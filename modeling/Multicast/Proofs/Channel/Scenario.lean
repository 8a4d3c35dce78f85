import Multicast.Channel.Scenario

/-! The course of a scenario on a channel. Whatever state the channel comes to is one to which a run
of a channel comes; so it keeps to its bound, and what the steps write is received in the order of
the writes. A write waits only for room. -/

namespace Multicast

namespace Channel

variable {α : Type}

/-- A run of a channel, with the values that it takes and those that are received, the first ones
first. A party sends when it need not wait. -/
inductive Course (c : Channel α) : List α → List α → Channel α → Prop
  | refl : Course c [] [] c
  | ask {taken received : List α} {d : Channel α} (h : Course c taken received d) (p : Party) :
      Course c taken received (d.ask p)
  | take {taken received : List α} {d : Channel α} (h : Course c taken received d) (p : Party)
      (a : α) (hopen : d.closed = false) (hgo : d.mayGo p = true) :
      Course c (taken ++ [a]) received (d.send p a).1
  | refuse {taken received : List α} {d : Channel α} (h : Course c taken received d) (p : Party)
      (a : α) (hclosed : d.closed = true) : Course c taken received (d.send p a).1
  | receive {taken received : List α} {d u : Channel α} {a : α} (h : Course c taken received d)
      (ha : d.receive? = some (a, u)) : Course c taken (received ++ [a]) u
  | close {taken received : List α} {d : Channel α} (h : Course c taken received d) :
      Course c taken received d.close

variable {c d : Channel α} {taken received : List α}

theorem Course.capacity (h : c.Course taken received d) : d.capacity = c.capacity := by
  induction h with
  | refl => rfl
  | ask _ _ ih | close _ ih => exact ih
  | take _ p a hopen _ ih =>
    rw [send_of_open _ hopen]
    exact ih
  | refuse _ p a hclosed ih =>
    rw [send_of_closed _ hclosed]
    exact ih
  | receive _ ha ih =>
    obtain ⟨rest, -, rfl⟩ := exists_of_receive? ha
    exact ih

/-- A channel never holds more than it has room for. -/
theorem Course.length_buffer_le (h : c.Course taken received d)
    (hc : c.buffer.length ≤ c.capacity) : d.buffer.length ≤ c.capacity := by
  induction h with
  | refl => exact hc
  | ask _ _ ih => exact ih
  | take hbefore p a hopen hgo _ =>
    -- whoever sends found room
    have hroom := ((mayGo_iff_of_open hopen).mp hgo).2
    rw [hbefore.capacity] at hroom
    rw [send_of_open _ hopen, List.length_append]
    exact hroom
  | refuse _ p a hclosed ih =>
    rw [send_of_closed _ hclosed]
    exact ih
  | receive _ ha ih =>
    obtain ⟨rest, hbuffer, rfl⟩ := exists_of_receive? ha
    rw [hbuffer, List.length_cons] at ih
    exact Nat.le_of_succ_le ih
  | close => exact Nat.zero_le _

/-- What the channel took is, in this order, what was received, what the channel holds, and what was
lost with the receiver. -/
theorem Course.accounts (h : c.Course taken received d) :
    ∃ lost, received ++ d.buffer ++ lost = c.buffer ++ taken ∧ (d.closed = false → lost = []) := by
  induction h with
  | refl => exact ⟨[], rfl, fun _ => rfl⟩
  | ask _ _ ih => exact ih
  | @take taken received d _ p a hopen _ ih =>
    obtain ⟨lost, hall, hlost⟩ := ih
    rw [hlost hopen, List.append_nil] at hall
    refine ⟨[], ?_, fun _ => rfl⟩
    rw [send_of_open _ hopen, List.append_nil]
    calc received ++ (d.buffer ++ [a])
        = received ++ d.buffer ++ [a] := (List.append_assoc ..).symm
      _ = c.buffer ++ taken ++ [a] := by rw [hall]
      _ = c.buffer ++ (taken ++ [a]) := List.append_assoc ..
  | refuse _ p a hclosed ih =>
    obtain ⟨lost, hall, -⟩ := ih
    rw [send_of_closed _ hclosed]
    refine ⟨lost, hall, ?_⟩
    intro hopen
    exact absurd (hclosed.symm.trans hopen) Bool.noConfusion
  | @receive taken received d u a _ ha ih =>
    obtain ⟨lost, hall, hlost⟩ := ih
    obtain ⟨rest, hbuffer, rfl⟩ := exists_of_receive? ha
    refine ⟨lost, ?_, hlost⟩
    rw [← hall, hbuffer, List.append_assoc received]
    rfl
  | @close taken received d _ ih =>
    obtain ⟨lost, hall, -⟩ := ih
    -- with the receiver goes what the channel held
    refine ⟨d.buffer ++ lost, ?_, fun hopen => by cases hopen⟩
    rw [← hall, List.append_assoc received d.buffer]
    exact congrArg (· ++ (d.buffer ++ lost)) (List.append_nil received)

end Channel

/-- The batch that a step has received. -/
def ChannelAnswer.batch? : ChannelAnswer → Option (Batch Nat)
  | .received b => some b
  | _ => none

namespace ChannelScenario

/-- The scenario after some steps. -/
def after (s : ChannelScenario) (steps : List ChannelStep) : ChannelScenario :=
  steps.foldl (fun s st => (s.step st).1) s

/-- The batch that a step writes, if there still is a sink to write to. -/
def writtenIn (s : ChannelScenario) : ChannelStep → List (Batch Nat)
  | .write b => if s.sinkHeld then [b] else []
  | _ => []

/-- The batches that the steps write, the first one first. -/
def written (s : ChannelScenario) : List ChannelStep → List (Batch Nat)
  | [] => []
  | st :: rest => s.writtenIn st ++ (s.step st).1.written rest

/-- The batches that the steps receive, the first one first. -/
def received (s : ChannelScenario) (steps : List ChannelStep) : List (Batch Nat) :=
  (s.run steps).filterMap (·.answer.batch?)

variable {c d : Channel (Batch Nat)} {taken received written : List (Batch Nat)} {n : Nat}
  {s : ChannelScenario} {writes : List (Nat × Batch Nat)}

/-! ### The open writes -/

/-- The open writes stand at the channel in their order. -/
def InLine (writes : List (Nat × Batch Nat)) (c : Channel (Batch Nat)) : Prop :=
  c.senders = writes.map fun w => .call w.1

theorem settleWrites_of_full (hopen : c.closed = false) (hfull : c.capacity ≤ c.buffer.length)
    (writes : List (Nat × Batch Nat)) : settleWrites writes c = (c, writes, []) := by
  induction writes with
  | nil => rfl
  | cons w rest ih =>
    have hwaits : ¬ c.mayGo (.call w.1) = true := by
      intro hgo
      obtain ⟨-, hroom⟩ := (Channel.mayGo_iff_of_open hopen).mp hgo
      omega
    rw [settleWrites, if_neg hwaits, ih]

/-- As long as there is a receiver, the first of the open writes come to their end, as many as there
is room for. -/
theorem settleWrites_of_open (hcourse : d.Course taken received c) (hopen : c.closed = false)
    (hline : InLine writes c) :
    ∃ first, d.Course (taken ++ first) received (settleWrites writes c).1 ∧
      first ++ (settleWrites writes c).2.1.map Prod.snd = writes.map Prod.snd ∧
      InLine (settleWrites writes c).2.1 (settleWrites writes c).1 ∧
      ((settleWrites writes c).2.1 ≠ [] →
        d.capacity ≤ (settleWrites writes c).1.buffer.length) := by
  induction writes generalizing taken c with
  | nil =>
    refine ⟨[], ?_, rfl, hline, fun h => absurd rfl h⟩
    rw [List.append_nil]
    exact hcourse
  | cons w rest ih =>
    obtain ⟨i, b⟩ := w
    by_cases hroom : c.buffer.length < c.capacity
    · -- the first of them goes, and the next one is at the head of the line
      have hgo : c.mayGo (.call i) = true := by
        rw [Channel.mayGo_iff_of_open hopen, hline]
        exact ⟨rfl, hroom⟩
      have htaken := hcourse.take (.call i) b hopen hgo
      have hshorter : c.senders.erase (.call i) = rest.map fun w => Party.call w.1 := by
        rw [hline, List.map_cons, List.erase_cons_head]
      rw [Channel.send_of_open _ hopen] at htaken
      obtain ⟨first, hcourse', hall, hrest⟩ := ih htaken hopen hshorter
      rw [settleWrites, if_pos hgo, Channel.send_of_open _ hopen]
      refine ⟨b :: first, ?_, congrArg (b :: ·) hall, hrest⟩
      rw [List.append_cons]
      exact hcourse'
    · -- nobody goes past the one who finds no room
      rw [settleWrites_of_full hopen (Nat.not_lt.mp hroom)]
      refine ⟨[], ?_, rfl, hline, ?_⟩
      · rw [List.append_nil]
        exact hcourse
      · intro _
        rw [← hcourse.capacity]
        exact Nat.not_lt.mp hroom

/-- When the receiver is gone, all writes fail. -/
theorem settleWrites_of_closed (hcourse : d.Course taken received c) (hclosed : c.closed = true)
    (writes : List (Nat × Batch Nat)) :
    d.Course taken received (settleWrites writes c).1 ∧
      (settleWrites writes c).1.closed = true := by
  induction writes generalizing c with
  | nil => exact ⟨hcourse, hclosed⟩
  | cons w rest ih =>
    obtain ⟨i, b⟩ := w
    have hgo : c.mayGo (.call i) = true := Channel.mayGo_of_closed hclosed
    have hrefused := hcourse.refuse (.call i) b hclosed
    rw [Channel.send_of_closed _ hclosed] at hrefused
    rw [settleWrites, if_pos hgo, Channel.send_of_closed _ hclosed]
    exact ih hrefused hclosed

/-! ### What a step keeps -/

/-- How a scenario stands after some batches were written and some were received: the channel took
the first of those that were written, and as long as there is a receiver the others wait. -/
structure Orderly (n : Nat) (written received : List (Batch Nat)) (s : ChannelScenario) : Prop where
  course : ∃ taken others, (Channel.ofCapacity n).Course taken received s.channel ∧
    taken ++ others = written ∧ (s.channel.closed = false → others = s.writes.map Prod.snd)
  line : s.channel.closed = false → InLine s.writes s.channel

/-- Whoever waits, waits because the channel is full. -/
def Settled (n : Nat) (s : ChannelScenario) : Prop :=
  s.channel.closed = false → s.writes ≠ [] → max n 1 ≤ s.channel.buffer.length

theorem orderly_new (n : Nat) : Orderly n [] [] (new n) where
  course := ⟨[], [], .refl, rfl, fun _ => rfl⟩
  line _ := rfl

/-- Nothing is written, and nothing is received. -/
theorem Orderly.same (h : Orderly n written received s) :
    Orderly n (written ++ []) (received ++ []) s := by
  rwa [List.append_nil, List.append_nil]

/-- A write that begins goes to the end of the line. -/
theorem Orderly.write (h : Orderly n written received s) (i : Nat) (b : Batch Nat) :
    Orderly n (written ++ [b]) received { s with
      channel := s.channel.ask (.call i), writes := s.writes ++ [(i, b)] } := by
  obtain ⟨taken, others, hcourse, hall, hothers⟩ := h.course
  refine ⟨⟨taken, others ++ [b], hcourse.ask (.call i), ?_, ?_⟩, ?_⟩
  · rw [← List.append_assoc, hall]
  · intro hopen
    rw [hothers hopen, List.map_append]
    rfl
  · intro hopen
    rw [InLine, Channel.ask, h.line hopen, List.map_append]
    rfl

theorem Orderly.receive (h : Orderly n written received s) {b : Batch Nat}
    (hb : s.channel.receive? = some (b, c)) :
    Orderly n written (received ++ [b]) { s with channel := c } := by
  obtain ⟨taken, others, hcourse, hall, hothers⟩ := h.course
  have hreceived := hcourse.receive hb
  obtain ⟨rest, -, rfl⟩ := Channel.exists_of_receive? hb
  exact ⟨⟨taken, others, hreceived, hall, hothers⟩, h.line⟩

theorem Orderly.close (h : Orderly n written received s) :
    Orderly n written received { s with channel := s.channel.close } := by
  obtain ⟨taken, others, hcourse, hall, -⟩ := h.course
  exact ⟨⟨taken, others, hcourse.close, hall, fun hopen => by cases hopen⟩,
    fun hopen => by cases hopen⟩

theorem Orderly.act (h : Orderly n written received s) (st : ChannelStep) :
    Orderly n (written ++ s.writtenIn st) (received ++ (s.act st).2.batch?.toList)
      (s.act st).1 := by
  cases st with
  | write b =>
    simp only [ChannelScenario.act, writtenIn]
    split
    · have hbegun := h.write s.stepsDone b
      rw [← List.append_nil received] at hbegun
      exact hbegun
    · exact h.same
  | receive =>
    simp only [ChannelScenario.act, writtenIn]
    cases s.channel.closed with
    | true => exact h.same
    | false =>
      cases hb : s.channel.receive? with
      | none =>
        cases s.sinkHeld || !s.writes.isEmpty with
        | true | false => exact h.same
      | some received =>
        rw [List.append_nil]
        exact h.receive hb
  | dropReceiver => exact h.same.close
  | dropSink => exact ⟨h.same.course, h.line⟩

/-- What a step receives is what it answers at once. -/
theorem batch?_step (s : ChannelScenario) (st : ChannelStep) :
    (s.step st).2.answer.batch? = (s.act st).2.batch? := by
  unfold step
  dsimp only
  split
  · next hpending _ =>
    rw [hpending]
    rfl
  · rfl

theorem Orderly.step (h : Orderly n written received s) (st : ChannelStep) :
    Orderly n (written ++ s.writtenIn st) (received ++ (s.step st).2.answer.batch?.toList)
      (s.step st).1 ∧ Settled n (s.step st).1 := by
  obtain ⟨⟨taken, others, hcourse, hall, hothers⟩, hline⟩ := h.act st
  rw [batch?_step]
  cases hopen : (s.act st).1.channel.closed with
  | false =>
    obtain ⟨first, hcourse', hfirst, hline', hfull⟩ :=
      settleWrites_of_open hcourse hopen (hline hopen)
    refine ⟨⟨⟨taken ++ first, _, hcourse', ?_, fun _ => rfl⟩, fun _ => hline'⟩, fun _ => hfull⟩
    calc taken ++ first ++ _
        = taken ++ (first ++ _) := List.append_assoc ..
      _ = taken ++ others := congrArg (taken ++ ·) (hfirst.trans (hothers hopen).symm)
      _ = _ := hall
  | true =>
    obtain ⟨hcourse', hclosed⟩ := settleWrites_of_closed hcourse hopen (s.act st).1.writes
    -- nothing is said of a channel without a receiver but what it took before
    have hgone : ¬ (s.step st).1.channel.closed = false := fun h =>
      Bool.false_ne_true (h.symm.trans hclosed)
    exact ⟨⟨⟨taken, others, hcourse', hall, fun h => absurd h hgone⟩, fun h => absurd h hgone⟩,
      fun h => absurd h hgone⟩

theorem received_cons (s : ChannelScenario) (st : ChannelStep) (rest : List ChannelStep) :
    s.received (st :: rest) =
      (s.step st).2.answer.batch?.toList ++ (s.step st).1.received rest := by
  rw [ChannelScenario.received, run, List.filterMap_cons]
  cases (s.step st).2.answer.batch? <;> rfl

theorem Orderly.after (h : Orderly n written received s) (hs : Settled n s)
    (steps : List ChannelStep) :
    Orderly n (written ++ s.written steps) (received ++ s.received steps) (s.after steps) ∧
      Settled n (s.after steps) := by
  induction steps generalizing s written received with
  | nil => exact ⟨h.same, hs⟩
  | cons st rest ih =>
    obtain ⟨hstep, hsettled⟩ := h.step st
    obtain ⟨hrest, hlast⟩ := ih hstep hsettled
    rw [List.append_assoc, List.append_assoc, ← received_cons] at hrest
    exact ⟨hrest, hlast⟩

/-! ### Every scenario -/

theorem orderly_after (n : Nat) (steps : List ChannelStep) :
    Orderly n ((new n).written steps) ((new n).received steps) ((new n).after steps) ∧
      Settled n ((new n).after steps) :=
  (orderly_new n).after (fun _ h => absurd rfl h) steps

/-- The channel of a scenario is in a state to which a run of the channel comes, in which just what
the steps receive is received. -/
theorem exists_course (n : Nat) (steps : List ChannelStep) :
    ∃ taken, (Channel.ofCapacity n).Course taken ((new n).received steps)
      ((new n).after steps).channel := by
  obtain ⟨taken, _, hcourse, -⟩ := (orderly_after n steps).1.course
  exact ⟨taken, hcourse⟩

theorem length_buffer_after (n : Nat) (steps : List ChannelStep) :
    ((new n).after steps).channel.buffer.length ≤ max n 1 := by
  obtain ⟨taken, hcourse⟩ := exists_course n steps
  exact hcourse.length_buffer_le (Nat.zero_le _)

/-- What the steps receive is the first of what they write, in the same order. -/
theorem received_isPrefix (n : Nat) (steps : List ChannelStep) :
    (new n).received steps <+: (new n).written steps := by
  obtain ⟨taken, others, hcourse, hall, -⟩ := (orderly_after n steps).1.course
  obtain ⟨lost, htaken, -⟩ := hcourse.accounts
  refine ⟨((new n).after steps).channel.buffer ++ (lost ++ others), ?_⟩
  rw [← hall, ← List.append_assoc, ← List.append_assoc, htaken]
  rfl

/-- As long as there is a receiver, what the steps have written is received, is in the channel, or
waits, in this order; and nobody waits unless the channel is full. -/
theorem written_of_open (n : Nat) (steps : List ChannelStep)
    (h : ((new n).after steps).channel.closed = false) :
    (new n).received steps ++ ((new n).after steps).channel.buffer ++
        ((new n).after steps).writes.map Prod.snd = (new n).written steps ∧
      (((new n).after steps).writes ≠ [] →
        ((new n).after steps).channel.buffer.length = max n 1) := by
  obtain ⟨⟨⟨taken, others, hcourse, hall, hothers⟩, -⟩, hsettled⟩ := orderly_after n steps
  obtain ⟨lost, htaken, hlost⟩ := hcourse.accounts
  rw [hlost h, List.append_nil] at htaken
  refine ⟨?_, ?_⟩
  · rw [htaken, ← hothers h, ← hall]
    rfl
  · intro hwaits
    exact Nat.le_antisymm (length_buffer_after n steps) (hsettled h hwaits)

end ChannelScenario

end Multicast
