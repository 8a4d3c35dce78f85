import Multicast.Proofs.Demo.Work

/-! The turns of the producer. What is new is newer than all before it. What comes again has been
announced before; if nothing was pending when the turn began, the cursor of whoever is to see it
lies beyond it, since the number between the two has been written. -/

namespace Multicast

namespace Demo

variable {settings : Settings} {numbers : List Nat} {Q Q' : Nat → Portion → Prop} {d e u : Demo}
  {i m n : Nat} {p : Portion} {once later : Prop} {policy : StalePolicy}

/-- Whether the worker of the subscriber sleeps and nothing has woken it. -/
def isIdle (d : Demo) (i : Nat) : Bool :=
  match (d.registry.session? i).map Session.worker with
  | some .asleep => !d.registry.workerReady i
  | _ => false

theorem worker_of_isIdle {x : Session} (h : d.isIdle i = true)
    (hx : d.registry.session? i = some x) :
    x.worker = .asleep ∧ d.registry.workerReady i = false := by
  simp only [isIdle, hx, Option.map_some] at h
  cases hw : x.worker with
  | asleep =>
    simp only [hw, Bool.not_eq_true'] at h
    exact ⟨rfl, h⟩
  | _ => simp only [hw, Bool.false_eq_true] at h

/-- If so, no number is begun twice for the subscriber, or will be. -/
def Singly (once : Prop) (i : Nat) (p : Portion) : Prop := once → p.Single (lastPast i)

/-- If so, the same holds, and the cursor lies beyond the number that comes again in the turn after
`n` turns. -/
def Prepared (later : Prop) (n i : Nat) (p : Portion) : Prop :=
  later → p.Single (lastPast i) ∧ ((historyLength + 1 + n) % 10 = 0 →
    (historyLength + 1 + n) % 3 = i % 3 →
    historyLength + 1 + n - lookBack < p.reach (lastPast i))

theorem lasting_singly (policy : StalePolicy) (once : Prop) : Lasting policy (Singly once) where
  start _ _ := .empty _
  move _ _ _ _ hfair hmove h honce := (h honce).move hfair hmove

/-! ### One number -/

/-- What is published leaves all but the subscribers alone. -/
structure Unmoved (d e : Demo) : Prop where
  settings : e.settings = d.settings
  main : e.main = d.main
  producer : e.producer = d.producer
  sequence : e.sequence = d.sequence
  consumers : e.consumers = d.consumers
  calls : e.registry.calls = d.registry.calls
  sessions : e.registry.sessions.length = d.registry.sessions.length

theorem Unmoved.trans (h : Unmoved d e) (h' : Unmoved e u) : Unmoved d u where
  settings := h'.settings.trans h.settings
  main := h'.main.trans h.main
  producer := h'.producer.trans h.producer
  sequence := h'.sequence.trans h.sequence
  consumers := h'.consumers.trans h.consumers
  calls := h'.calls.trans h.calls
  sessions := h'.sessions.trans h.sessions

/-- A number is published that is newer than all before it, or that was announced before. -/
theorem Manned.publish (h : Manned settings numbers Q d) (hm : historyLength < m)
    (hnew : (∀ s ∈ numbers, s ≤ m) ∨ m ∈ numbers)
    (hmine : ∀ i, m % 3 = i % 3 → ∀ p,
      p.Fair settings.stream.config.stalePolicy (lastPast i) (share i numbers) → Q i p →
      Q' i (p.announce m))
    (hother : ∀ i, m % 3 ≠ i % 3 → ∀ p, Q i p → Q' i p) :
    Manned settings (numbers ++ [m]) Q' (d.publish (event m)) ∧
      Unmoved d (d.publish (event m)) := by
  obtain ⟨v, routed, hpublish, hcalm, hcalls, -, hlength, hskips, hsession⟩ :=
    h.calm.publishLive m
  have hstep : d.publish (event m) = (d.withRegistry v).note (.published m routed) := by
    have hitem : d.registry.publishLive (.single (event m)) = (v, .ok routed) := hpublish
    simp only [Demo.publish, hitem]
    rfl
  rw [hstep]
  refine ⟨⟨h.same, hcalm, fun i c hc => ?_, fun i hi => (hskips i).trans (h.unskipped i hi)⟩,
    rfl, rfl, rfl, rfl, rfl, hcalls, hlength⟩
  obtain ⟨hgoing, hseat⟩ := h.seats i c hc
  have hlast : lastPast i < m := (lastId?_backfill i).2.trans_lt hm
  exact ⟨hgoing, hseat.publishLive hlast hnew hskips hsession (hmine i) (hother i)⟩

/-! ### A turn -/

/-- An idle worker has nothing pending. -/
theorem Seat.pending_of_idle {x : Session} {taken skipped : List (Batch Nat)}
    (h : Seat i taken skipped p x) (hx : d.registry.session? i = some x)
    (hidle : d.isIdle i = true) : p.pending = 0 := by
  obtain ⟨hw, hwaits⟩ := worker_of_isIdle hidle hx
  simp only [Registry.workerReady, hx, hw, Queue.workerReady, h.opened, Bool.false_or] at hwaits
  cases h.stands with
  | fresh hfresh =>
    rw [hw] at hfresh
    cases hfresh
  | inLine hline =>
    rw [hw] at hline
    cases hline
  | asleep _ _ hs =>
    rcases hs with hgiven | ⟨-, hnone⟩
    · rw [hwaits] at hgiven
      cases hgiven
    · exact hnone
  | writing numbers m run hwriting =>
    rw [hw] at hwriting
    cases hwriting

/-- When all workers are idle, nothing is pending for anybody. -/
theorem Manned.idle (h : Manned settings numbers (Singly once) d)
    (hidle : later → once ∧ ∀ i < d.consumers.length, d.isIdle i = true) :
    Manned settings numbers (fun i p => later → p.Single (lastPast i) ∧ p.pending = 0) d := by
  refine { h with seats := fun i c hc => ?_ }
  obtain ⟨hgoing, x, p, hx, hseat, hfair, hsingle⟩ := h.seats i c hc
  refine ⟨hgoing, x, p, hx, hseat, hfair, fun hlater => ?_⟩
  obtain ⟨honce, hall⟩ := hidle hlater
  have hi : i < d.consumers.length := (List.getElem?_eq_some_iff.mp hc).1
  exact ⟨hsingle honce, hseat.pending_of_idle hx (hall i hi)⟩

theorem Portion.Fair.reach_lt (h : p.Fair policy (lastPast i) (share i (announced n)))
    (hm : historyLength + n < m) : p.reach (lastPast i) < m := by
  rcases p.reach_eq_or_mem (lastPast i) with hstart | hbegun
  · rw [hstart]
    exact ((lastId?_backfill i).2.trans (Nat.le_add_right _ n)).trans_lt hm
  · have hmem := (mem_share_iff.mp (h.mem_announced (.inl hbegun))).1
    exact (mem_newNumbers_iff.mp (mem_announced_iff.mp hmem)).2.trans_lt hm

/-- When nothing is pending, the cursor lies beyond the number that comes again in a turn. -/
theorem Portion.Fair.lt_reach (h : p.Fair policy (lastPast i) (share i (announced n)))
    (hnone : p.pending = 0) (hten : (historyLength + 1 + n) % 10 = 0)
    (htenant : (historyLength + 1 + n) % 3 = i % 3) :
    historyLength + 1 + n - lookBack < p.reach (lastPast i) := by
  have hlength : historyLength = 30 := rfl
  have hback : lookBack = 6 := rfl
  -- the number of the same tenant between the two
  have hbetween : historyLength + 1 + n - 3 ∈ share i (announced n) := by
    rw [mem_share_iff, mem_announced_iff, mem_newNumbers_iff]
    omega
  have hreached := h.le_reach ((h.mem_begun_iff hnone).mpr hbetween)
  omega

/-- The number that is new in a turn. -/
theorem Manned.publishNew (h : Manned settings (announced n) (Singly once) d)
    (hidle : later → once ∧ ∀ i < d.consumers.length, d.isIdle i = true) :
    Manned settings (announced n ++ [historyLength + 1 + n]) (Prepared later n)
        (d.publish (event (historyLength + 1 + n))) ∧
      Unmoved d (d.publish (event (historyLength + 1 + n))) := by
  have hlength : historyLength = 30 := rfl
  have hback : lookBack = 6 := rfl
  refine (h.idle hidle).publish (by omega) (.inl fun s hs => ?_)
    (fun i htenant p hfair hQ hlater => ?_) (fun i htenant p hQ hlater => ?_)
  · have hle := (mem_newNumbers_iff.mp (mem_announced_iff.mp hs)).2
    omega
  · obtain ⟨hsingle, hnone⟩ := hQ hlater
    have hbelow : p.reach (lastPast i) < historyLength + 1 + n := hfair.reach_lt (by omega)
    refine ⟨hsingle.announce (.inr ⟨hbelow, ?_⟩), fun hten _ => hfair.lt_reach hnone hten htenant⟩
    rw [hnone]
    exact Multiset.notMem_zero _
  · exact ⟨(hQ hlater).1, fun _ hmine => absurd hmine htenant⟩

/-- The number that comes again in a turn. -/
theorem Manned.publishAgain
    (h : Manned settings (announced n ++ [historyLength + 1 + n]) (Prepared later n) d)
    (hten : (historyLength + 1 + n) % 10 = 0) :
    Manned settings (announced n ++ [historyLength + 1 + n] ++ [historyLength + 1 + n - lookBack])
        (Singly later) (d.publish (event (historyLength + 1 + n - lookBack))) ∧
      Unmoved d (d.publish (event (historyLength + 1 + n - lookBack))) := by
  have hlength : historyLength = 30 := rfl
  have hback : lookBack = 6 := rfl
  refine h.publish (by omega) (.inr (List.mem_append_left _ ?_))
    (fun i htenant p hfair hQ hlater => ?_) (fun i htenant p hQ hlater => (hQ hlater).1)
  · rw [mem_announced_iff, mem_newNumbers_iff]
    omega
  · -- the older number belongs to the same tenant as the new one
    obtain ⟨hsingle, hbeyond⟩ := hQ hlater
    exact hsingle.announce (.inl (hbeyond hten (by omega)))

/-- A turn of the producer: the next number, and sometimes an older one. -/
theorem Manned.produce (h : Manned settings (announced n) (Singly once) d)
    (hsequence : d.sequence = historyLength + n)
    (hidle : later → once ∧ ∀ i < d.consumers.length, d.isIdle i = true) :
    Manned settings (announced (n + 1)) (Singly later) d.produce ∧
      Unmoved { d with sequence := d.sequence + 1 } d.produce := by
  have hnext : d.sequence + 1 = historyLength + 1 + n := by omega
  have hproduce : d.produce = (announcedAt (historyLength + 1 + n)).foldl
      (fun e m => e.publish (event m)) { d with sequence := d.sequence + 1 } := by
    rw [← hnext, Demo.produce, published_eq, List.foldl_map]
  have hmanned : Manned settings (announced n) (Singly once)
      { d with sequence := d.sequence + 1 } := ⟨h.same, h.calm, h.seats, h.unskipped⟩
  obtain ⟨hnew, hunmoved⟩ := hmanned.publishNew hidle
  rw [hproduce, announced_succ, announcedAt_eq]
  -- only every tenth turn has a second number
  split
  · next hten =>
    obtain ⟨hagain, hstill⟩ := hnew.publishAgain hten
    rw [List.append_assoc] at hagain
    exact ⟨hagain, hunmoved.trans hstill⟩
  · next hten =>
    exact ⟨hnew.imp fun i p hQ hlater => (hQ hlater).1, hunmoved⟩

theorem Calm.isCancelled {config : Config} (h : Calm config d.registry) :
    d.isCancelled = false := by
  rw [Demo.isCancelled, h.tokens]
  rfl

/-- The producer has its turn. -/
theorem Underway.producerStep (h : Underway settings n (Singly once) d)
    (hready : d.producerReady = true)
    (hidle : later → once ∧ ∀ i < d.consumers.length, d.isIdle i = true) :
    Underway settings (n + 1) (Singly later) d.producerStep := by
  -- the producer is absent until all subscribers have their seats
  cases h.phase with
  | asking i j begun hmain harriving =>
    simp only [Demo.producerReady, harriving.producer, Bool.false_eq_true] at hready
  | guest i j point c x hmain harriving =>
    simp only [Demo.producerReady, harriving.producer, Bool.false_eq_true] at hready
  | serving next hmain hproducer hfull hsessions hall =>
    obtain ⟨l, hl⟩ : ∃ l : Loop Unit, l = { period := d.tick, next := next } := ⟨_, rfl⟩
    have hstep : d.producerStep =
        ({ d with producer := .ticking (l.after d.registry.now) } : Demo).produce := by
      simp only [Demo.producerStep, hproducer, Calm.isCancelled h.calm, Bool.false_eq_true,
        if_false, hl]
    have hmanned : Manned settings (announced n) (Singly once)
        { d with producer := .ticking (l.after d.registry.now) } :=
      ⟨h.same, h.calm, h.seats, h.unskipped⟩
    obtain ⟨hproduced, hunmoved⟩ := hmanned.produce h.sequence hidle
    rw [hstep]
    refine ⟨hproduced, ?_, .serving _ (hunmoved.main.trans hmain) hunmoved.producer ?_ ?_ ?_⟩
    · rw [hunmoved.sequence]
      exact congrArg (· + 1) h.sequence
    · rw [hunmoved.consumers, hunmoved.settings]
      exact hfull
    · rw [hunmoved.sessions, hunmoved.consumers]
      exact hsessions
    · rw [hunmoved.calls]
      exact hall

/-! ### Time and the signal -/

theorem Underway.elapse (h : Underway settings n Q d) (ms : Nat) :
    Underway settings n Q (d.apply (.elapse ms)) := by
  have hcalm : Calm settings.stream.config (d.apply (.elapse ms)).registry :=
    h.calm.apply (.elapse ms) rfl rfl rfl rfl
  exact ⟨h.toManned.of_spares (.of_sessions rfl fun _ => rfl) hcalm rfl rfl, h.sequence,
    h.phase.congr rfl rfl rfl rfl rfl rfl (fun _ _ => rfl) (Nat.le_add_right _ ms)⟩

theorem Underway.signal (h : Underway settings n Q d) (s : StopSignal) :
    Underway settings n Q (d.apply (.signal s)) :=
  ⟨h.toManned.of_spares (.of_sessions rfl fun _ => rfl) h.calm rfl rfl, h.sequence,
    h.phase.congr rfl rfl rfl rfl rfl rfl (fun _ _ => rfl) (Nat.le_refl _)⟩

end Demo

end Multicast
