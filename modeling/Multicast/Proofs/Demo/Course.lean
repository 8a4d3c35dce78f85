import Multicast.Proofs.Demo.Seating

/-! The course of the demonstration until it is told to end. The subscribers are let in one after
the other: each is registered, sent its history and activated, before the next one comes. When all
have their seats the producer begins. -/

namespace Multicast

/-- Whether a call is one of the loops. -/
def Call.isLoop : Call → Bool
  | .sweepLoop _ | .pingLoop _ => true
  | _ => false

/-- Whether a call has returned, or is a sweep loop between two passes. -/
def Call.IsIdle : Call → Prop
  | .returned _ => True
  | .sweepLoop l => l.pass = none
  | _ => False

namespace Demo

open Registry (Tends)

/-! ### Where the demonstration stands -/

/-- Where the main task and the call stand with which the subscriber `i` is let in. -/
inductive Guest (i j : Nat) (x : Session) : MainPoint → Call → Prop
  | enrolled (h : Newcomer i [] [] [] none x) :
      Guest i j x (.subscribing i j) (.returned (.ok (.subscribed i)))
  | waiting (h : Newcomer i [] [.call j] [] none x) :
      Guest i j x (.backfilling i j) (.sending (historyTo i none))
  | writing (run : Delivery) (hpoint : run.point = .writing .sending)
      (hkeep : run.keepAlive = false) (hframe : run.frame = backfill i)
      (h : Newcomer i [] [.call j] [.call j] none x) :
      Guest i j x (.backfilling i j) (.sending (historyTo i (some run)))
  | sent (h : Newcomer i [backfill i] [] [] (some (lastPast i)) x) :
      Guest i j x (.backfilling i j) (.returned (.ok (.flag true)))

/-- The subscriber `i` is let in by the call with the number `j`, which stands at `c`; the producer
has not had a turn. -/
structure Arriving (n i j : Nat) (c : Call) (d : Demo) : Prop where
  place : d.consumers.length = i
  within : i < d.settings.demo.subscribers
  producer : d.producer = .absent
  silent : n = 0
  call : d.registry.calls[j]? = some c
  others : ∀ (k : Nat) (c' : Call), k ≠ j → d.registry.calls[k]? = some c' → c'.IsIdle

/-- How far the demonstration has come when the producer has had `n` turns. -/
inductive Phase (n : Nat) (d : Demo) : Prop
  | asking (i j begun : Nat) (hmain : d.main = .subscribing i j)
      (h : Arriving n i j (.subscribing (subscription i) ⟨begun, .succeed⟩) d)
      (hdue : begun ≤ d.registry.now) (hsessions : d.registry.sessions.length = i)
  | guest (i j : Nat) (point : MainPoint) (c : Call) (x : Session) (hmain : d.main = point)
      (h : Arriving n i j c d) (hx : d.registry.session? i = some x)
      (hsessions : d.registry.sessions.length = i + 1) (hguest : Guest i j x point c)
  | serving (next : Nat) (hmain : d.main = .serving) (hproducer : d.producer = .ticking next)
      (hfull : d.consumers.length = d.settings.demo.subscribers)
      (hsessions : d.registry.sessions.length = d.consumers.length)
      (hidle : ∀ (k : Nat) (c : Call), d.registry.calls[k]? = some c → c.IsIdle)

/-- The subscribers that have been let in have their seats, and their portions are as `Q` says. -/
structure Manned (settings : Settings) (numbers : List Nat) (Q : Nat → Portion → Prop)
    (d : Demo) : Prop where
  same : d.settings = settings
  calm : Calm settings.stream.config d.registry
  seats : ∀ i c, d.consumers[i]? = some c → c.ended = false ∧
    Seated settings.stream.config.stalePolicy numbers (Q i) i c.received.reverse d.registry
  unskipped : ∀ i, d.consumers.length ≤ i → d.registry.skips i = []

/-- The demonstration is under way, and the producer has had `n` turns. -/
structure Underway (settings : Settings) (n : Nat) (Q : Nat → Portion → Prop) (d : Demo) :
    Prop extends Manned settings (announced n) Q d where
  sequence : d.sequence = historyLength + n
  phase : Phase n d

/-- What `Q` says of the portions holds at the start, and whatever the workers do keeps it. -/
structure Lasting (policy : StalePolicy) (Q : Nat → Portion → Prop) : Prop where
  start : ∀ i, Q i {}
  move : ∀ i numbers p q, p.Fair policy (lastPast i) numbers → p.Move policy (lastPast i) q →
    Q i p → Q i q

/-- How many steps are left until the newest subscriber has its seat. -/
def stageLeft (d : Demo) : Nat :=
  match d.main with
  | .subscribing _ j => if d.registry.isOver j then 8 else 9
  | .backfilling _ j =>
    match d.registry.calls[j]? with
    | some (.sending e) => if e.delivery.isSome then 6 else 7
    | _ => 5
  | _ => 0

/-- How many steps at most are left until all subscribers have their seats and have received what
was announced. -/
def stepsLeft (d : Demo) : Nat :=
  -- the ten for a subscriber to come pay for its first steps and for letting the next one in
  ∑ i ∈ Finset.range d.consumers.length, stepsLeftOf d.registry i +
    10 * (d.settings.demo.subscribers - d.consumers.length) + d.stageLeft

variable {settings : Settings} {numbers : List Nat} {Q Q' : Nat → Portion → Prop} {d e : Demo}
  {i j m n : Nat} {v : Registry} {x y : Session} {c c' : Consumer} {skipped : List (Batch Nat)}
  {k : Call}

theorem stageLeft_of_asking {request : Subscription} {hook : HookRun}
    (hmain : d.main = .subscribing i j)
    (hcall : d.registry.calls[j]? = some (.subscribing request hook)) : d.stageLeft = 9 := by
  simp only [stageLeft, hmain, Registry.isOver, hcall, Bool.false_eq_true, if_false]

theorem stageLeft_of_enrolled {o : Except RegistryError Answer}
    (hmain : d.main = .subscribing i j) (hcall : d.registry.calls[j]? = some (.returned o)) :
    d.stageLeft = 8 := by
  simp only [stageLeft, hmain, Registry.isOver, hcall, if_true]

theorem stageLeft_of_sending {e : Direct} (hmain : d.main = .backfilling i j)
    (hcall : d.registry.calls[j]? = some (.sending e)) :
    d.stageLeft = if e.delivery.isSome then 6 else 7 := by
  simp only [stageLeft, hmain, hcall]

theorem stageLeft_of_sent {o : Except RegistryError Answer} (hmain : d.main = .backfilling i j)
    (hcall : d.registry.calls[j]? = some (.returned o)) : d.stageLeft = 5 := by
  simp only [stageLeft, hmain, hcall]

theorem Manned.imp (h : Manned settings numbers Q d) (hQ : ∀ i p, Q i p → Q' i p) :
    Manned settings numbers Q' d := by
  refine { h with seats := fun i c hc => ?_ }
  obtain ⟨hgoing, x, p, hx, hseat, hfair, hdivided⟩ := h.seats i c hc
  exact ⟨hgoing, x, p, hx, hseat, hfair, hQ i p hdivided⟩

theorem Guest.worker_eq {point : MainPoint} (h : Guest i j x point k) : x.worker = .absent := by
  cases h with
  | enrolled hnew => exact hnew.worker
  | waiting hnew => exact hnew.worker
  | writing run hpoint hkeep hframe hnew => exact hnew.worker
  | sent hnew => exact hnew.worker

theorem Guest.main_eq {point : MainPoint} (h : Guest i j x point k) :
    point = .subscribing i j ∨ point = .backfilling i j := by
  cases h with
  | enrolled => exact .inl rfl
  | waiting | writing | sent => exact .inr rfl

/-! ### One subscriber or its consumer goes on -/

/-- What is done for one subscriber that has its seat. -/
theorem Manned.of_tends (h : Manned settings numbers Q d) (hc : d.consumers[i]? = some c)
    (ht : Tends i d.registry v y skipped) (hcalm : Calm settings.stream.config v)
    (hended : c'.ended = false) (hseated : Seated settings.stream.config.stalePolicy numbers (Q i)
      i c'.received.reverse v) (he : e.settings = d.settings) (hregistry : e.registry = v)
    (hconsumers : e.consumers = d.consumers.set i c') : Manned settings numbers Q e := by
  have hi : i < d.consumers.length := (List.getElem?_eq_some_iff.mp hc).1
  refine ⟨he.trans h.same, hregistry ▸ hcalm, fun t b hb => ?_, fun t hlt => ?_⟩
  · rw [hconsumers] at hb
    rw [hregistry]
    by_cases hti : t = i
    · subst hti
      rw [List.getElem?_set_self hi] at hb
      obtain rfl := Option.some.inj hb
      exact ⟨hended, hseated⟩
    · rw [List.getElem?_set_ne (Ne.symm hti)] at hb
      obtain ⟨hgoing, hseat⟩ := h.seats t b hb
      exact ⟨hgoing, hseat.congr (ht.session?_of_ne hti) (ht.skips_of_ne hti)⟩
  · rw [hconsumers, List.length_set] at hlt
    rw [hregistry, ht.skips_of_ne (Nat.ne_of_gt (Nat.lt_of_lt_of_le hi hlt))]
    exact h.unskipped t hlt

/-- A subscriber is still being let in, by a call that may have gone on. -/
theorem Arriving.congr {a b : Call} (h : Arriving n i j a d) (hsettings : e.settings = d.settings)
    (hproducer : e.producer = d.producer) (hplace : e.consumers.length = d.consumers.length)
    (hcall : e.registry.calls[j]? = some b)
    (hothers : ∀ (k : Nat) (c : Call), k ≠ j → e.registry.calls[k]? = some c → c.IsIdle) :
    Arriving n i j b e where
  place := hplace.trans h.place
  within := by
    rw [hsettings]
    exact h.within
  producer := hproducer.trans h.producer
  silent := h.silent
  call := hcall
  others := hothers

/-- The phase stays while those are dealt with who have their seats, and while time passes. -/
theorem Phase.congr (h : Phase n d) (hsettings : e.settings = d.settings) (hmain : e.main = d.main)
    (hproducer : e.producer = d.producer) (hplace : e.consumers.length = d.consumers.length)
    (hcalls : e.registry.calls = d.registry.calls)
    (hlength : e.registry.sessions.length = d.registry.sessions.length)
    (hsession : ∀ t, d.consumers.length ≤ t → e.registry.session? t = d.registry.session? t)
    (hnow : d.registry.now ≤ e.registry.now) : Phase n e := by
  have harriving {i j : Nat} {k : Call} (h : Arriving n i j k d) : Arriving n i j k e :=
    h.congr hsettings hproducer hplace (hcalls ▸ h.call) (hcalls ▸ h.others)
  cases h with
  | asking i j begun hpoint h hdue hsessions =>
    exact .asking i j begun (hmain.trans hpoint) (harriving h) (hdue.trans hnow)
      (hlength.trans hsessions)
  | guest i j point k x hpoint h hx hsessions hguest =>
    exact .guest i j point k x (hmain.trans hpoint) (harriving h)
      ((hsession i h.place.le).trans hx) (hlength.trans hsessions) hguest
  | serving next hpoint hticking hfull hsessions hidle =>
    refine .serving next (hmain.trans hpoint) (hproducer.trans hticking) ?_ ?_ ?_
    · rw [hplace, hsettings]
      exact hfull
    · rw [hlength, hplace]
      exact hsessions
    · rw [hcalls]
      exact hidle

theorem Phase.of_tends (h : Phase n d) (hi : i < d.consumers.length)
    (ht : Tends i d.registry v y skipped) (hcalls : v.calls = d.registry.calls)
    (hsettings : e.settings = d.settings) (hregistry : e.registry = v) (hmain : e.main = d.main)
    (hproducer : e.producer = d.producer) (hplace : e.consumers.length = d.consumers.length) :
    Phase n e := by
  subst hregistry
  exact h.congr hsettings hmain hproducer hplace hcalls ht.length_eq
    (fun t hlt => ht.session?_of_ne (Nat.ne_of_gt (hi.trans_le hlt))) ht.now.ge

theorem stageLeft_congr (hmain : e.main = d.main) (hcalls : e.registry.calls = d.registry.calls) :
    e.stageLeft = d.stageLeft := by
  unfold stageLeft Registry.isOver
  rw [hmain, hcalls]

/-- Where there is less left to do for one subscriber, there is less left to do. -/
theorem stepsLeft_of_tends (hi : i < d.consumers.length) (ht : Tends i d.registry v y skipped)
    (hcalls : v.calls = d.registry.calls) (hless : stepsLeftOf v i < stepsLeftOf d.registry i)
    (he : e.settings = d.settings) (hregistry : e.registry = v) (hmain : e.main = d.main)
    (hconsumers : e.consumers.length = d.consumers.length) : e.stepsLeft < d.stepsLeft := by
  have hstage : e.stageLeft = d.stageLeft := stageLeft_congr hmain (by rw [hregistry, hcalls])
  have hsum : ∑ t ∈ Finset.range d.consumers.length, stepsLeftOf v t <
      ∑ t ∈ Finset.range d.consumers.length, stepsLeftOf d.registry t := by
    refine Finset.sum_lt_sum (fun t _ => ?_) ⟨i, Finset.mem_range.mpr hi, hless⟩
    by_cases hti : t = i
    · rw [hti]
      exact hless.le
    · rw [stepsLeftOf, stepsLeftOf, ht.session?_of_ne hti]
  rw [stepsLeft, stepsLeft, hstage, hconsumers, he, hregistry]
  omega

/-- Only those who have their seats have workers that may go on. -/
theorem Phase.lt_of_workerReady (h : Phase n d) (hready : d.registry.workerReady i = true) :
    i < d.consumers.length := by
  obtain ⟨x, hx⟩ : ∃ x, d.registry.session? i = some x := by
    cases hx : d.registry.session? i with
    | some x => exact ⟨x, rfl⟩
    | none => simp only [Registry.workerReady, hx, Bool.false_eq_true] at hready
  have hlt : i < d.registry.sessions.length := (List.getElem?_eq_some_iff.mp hx).1
  cases h with
  | asking t j begun hmain h hdue hsessions =>
    rw [h.place]
    exact hsessions ▸ hlt
  | guest t j point k y hmain h hy hsessions hguest =>
    have hplace := h.place
    by_contra hnot
    -- it would be the worker of the newcomer, which has not been started
    obtain rfl : i = t := by omega
    obtain rfl := Option.some.inj (hx.symm.trans hy)
    simp only [Registry.workerReady, hx, hguest.worker_eq, Queue.workerReady, Bool.false_eq_true]
      at hready
  | serving next hmain hproducer hfull hsessions hidle => exact hsessions ▸ hlt

/-- A later state of the demonstration, in which it is still under way with less left to do. -/
structure GoesOn (settings : Settings) (n : Nat) (Q : Nat → Portion → Prop) (d e : Demo) :
    Prop extends Underway settings n Q e where
  less : e.stepsLeft < d.stepsLeft

/-- The worker of a subscriber goes on. -/
theorem Underway.workerStep (h : Underway settings n Q d)
    (hlasting : Lasting settings.stream.stalePolicy Q)
    (hready : d.registry.workerReady i = true) :
    GoesOn settings n Q d (d.step (.registry (.worker i))) := by
  have hi := h.phase.lt_of_workerReady hready
  obtain ⟨c, hc⟩ : ∃ c, d.consumers[i]? = some c := ⟨_, List.getElem?_eq_getElem hi⟩
  obtain ⟨hgoing, hseated⟩ := h.seats i c hc
  obtain ⟨y, skipped, ht, hseated', hless⟩ := hseated.workerStep h.calm hready (hlasting.move i _)
  have hcalls : (d.registry.workerStep i).calls = d.registry.calls :=
    Registry.within_workerStep.calls
  have hcalm : Calm settings.stream.config (d.registry.workerStep i) :=
    h.calm.apply (.run (.worker i)) (apply_run hready) ht.hooks ht.tokens ht.stopped
  -- the consumer is put back as it was
  have hsame : d.consumers = d.consumers.set i c := by
    obtain ⟨hlt, rfl⟩ := List.getElem?_eq_some_iff.mp hc
    exact (List.set_getElem_self hlt).symm
  exact ⟨⟨h.toManned.of_tends hc ht hcalm hgoing hseated' rfl rfl hsame, h.sequence,
    h.phase.of_tends hi ht hcalls rfl rfl rfl rfl rfl⟩,
    stepsLeft_of_tends hi ht hcalls hless rfl rfl rfl rfl⟩

theorem Phase.sinksGone (h : Phase n d) : d.sinksGone = false := by
  unfold Demo.sinksGone
  cases h with
  | asking t j begun hmain => rw [hmain]
  | guest t j point k y hmain h hy hsessions hguest =>
    rcases hguest.main_eq with rfl | rfl
    all_goals rw [hmain]
  | serving next hmain => rw [hmain]

/-- The consumer of a subscriber goes on: it receives a batch. -/
theorem Underway.consumerStep (h : Underway settings n Q d) (hready : d.consumerReady i = true) :
    GoesOn settings n Q d (d.consumerStep i) := by
  cases hc : d.consumers[i]? with
  | none => simp only [Demo.consumerReady, hc, Bool.false_eq_true] at hready
  | some c =>
    have hi : i < d.consumers.length := (List.getElem?_eq_some_iff.mp hc).1
    obtain ⟨hgoing, hseated⟩ := h.seats i c hc
    -- nobody has gone away, so that the consumer is ready because there is a batch
    have hsome : (d.registry.receive? i).isSome = true := by
      simpa only [Demo.consumerReady, hc, hgoing, h.phase.sinksGone, Bool.not_false, Bool.true_and,
        Bool.or_false] using hready
    obtain ⟨⟨b, v⟩, hreceived⟩ := Option.isSome_iff_exists.mp hsome
    obtain ⟨y, ht, hseated', hless⟩ := hseated.receive hreceived
    have happly : d.registry.apply (.receive i) = v := by
      simp only [Registry.apply, hreceived, Option.map_some, Option.getD_some]
    have hcalls : v.calls = d.registry.calls := happly ▸ Registry.within_receive.calls
    have hcalm : Calm settings.stream.config v :=
      h.calm.apply _ happly ht.hooks ht.tokens ht.stopped
    have hstep : d.consumerStep i = { d.note (.received i b) with
        registry := v
        consumers := d.consumers.set i { c with received := b :: c.received } } := by
      simp only [Demo.consumerStep, hc, hreceived]
    rw [← List.reverse_cons] at hseated'
    rw [hstep]
    have hstays : ({ c with received := b :: c.received } : Consumer).ended = false := hgoing
    exact ⟨⟨h.toManned.of_tends hc ht hcalm hstays hseated' rfl rfl rfl, h.sequence,
      h.phase.of_tends hi ht hcalls rfl rfl rfl rfl List.length_set⟩,
      stepsLeft_of_tends hi ht hcalls hless rfl rfl rfl List.length_set⟩

end Demo

end Multicast
