import Multicast.Proofs.Demo.Turns

/-! What the subscribers of the demonstration receive. The tasks go on in any order, time passes as
it likes, and the demonstration may be told to end; until it begins to, each subscriber receives its
history first and then what is announced of its tenant, and all of that when the work is done. -/

namespace Multicast

namespace Demo

variable {settings : Settings} {d e : Demo} {i k n : Nat} {once : Prop} {action : DemoAction}
  {actions : List DemoAction} {t : DemoTask} {c : Call}

/-- Whether the producer has a turn by the action. -/
def takesTurn (d : Demo) : DemoAction → Bool
  | .run .producer => d.producerReady && !d.isCancelled
  | _ => false

/-- The states in which the producer has its turns in the course of the actions. -/
def turns (d : Demo) : List DemoAction → List Demo
  | [] => []
  | action :: rest =>
    if d.takesTurn action then d :: turns (d.apply action) rest else turns (d.apply action) rest

theorem turns_concat (d : Demo) (actions : List DemoAction) (action : DemoAction) :
    d.turns (actions ++ [action]) = d.turns actions ++
      if (d.run actions).takesTurn action then [d.run actions] else [] := by
  induction actions generalizing d with
  | nil => rfl
  | cons first rest ih =>
    rw [List.cons_append, turns, turns, ih]
    split
    · exact (List.cons_append ..).symm
    · rfl

/-! ### Before the end -/

theorem main_publish (d : Demo) (item : Item Nat) : (d.publish item).main = d.main := by
  unfold publish
  split <;> rfl

theorem main_produce (d : Demo) : d.produce.main = d.main := by
  have hitems (items : List (Item Nat)) (d : Demo) : (items.foldl publish d).main = d.main := by
    induction items generalizing d with
    | nil => rfl
    | cons item rest ih => exact (ih (d.publish item)).trans (main_publish d item)
  exact hitems _ _

theorem main_step (ht : t ≠ .main) : (d.step t).main = d.main := by
  cases t with
  | main => exact absurd rfl ht
  | registry t => rfl
  | producer =>
    show d.producerStep.main = d.main
    unfold producerStep
    split
    · split
      · rfl
      · exact main_produce _
    · rfl
    · rfl
  | consumer i =>
    show (d.consumerStep i).main = d.main
    unfold consumerStep
    split
    · rfl
    · split <;> rfl

theorem main_apply (ha : action ≠ .run .main) : (d.apply action).main = d.main := by
  cases action with
  | run t =>
    unfold apply
    dsimp only
    split
    · exact main_step (by rintro rfl; exact ha rfl)
    · rfl
  | elapse | signal => rfl

/-- The end that has begun is not taken back. -/
theorem beforeShutdown_of_apply (h : (d.apply action).beforeShutdown = true) :
    d.beforeShutdown = true := by
  by_cases ha : action = .run .main
  · subst ha
    unfold apply at h
    dsimp only at h
    split at h
    · cases hmain : d.main with
      | joining | stopping | draining | ended =>
        simp only [step, mainStep, hmain, beforeShutdown, withRegistry, note, Bool.false_eq_true,
          apply_ite Demo.main, ite_self] at h
      | subscribing | backfilling | serving | failed => simp only [beforeShutdown, hmain]
    · exact h
  · unfold beforeShutdown at h ⊢
    rwa [main_apply ha] at h

/-! ### One action -/

/-- The main task serves until it is told to end. -/
theorem serving_not_before (hmain : d.main = .serving) (hready : d.mainReady = true) :
    d.mainStep.beforeShutdown = false := by
  simp only [mainReady, hmain] at hready
  obtain ⟨s, hs⟩ := Option.isSome_iff_exists.mp hready
  simp only [mainStep, hmain, hs, beforeShutdown]

theorem Phase.isIdle_of_isLoop (h : Phase n d) (hc : d.registry.calls[k]? = some c)
    (hloop : c.isLoop = true) : c.IsIdle := by
  cases h with
  | asking i j begun hmain harriving =>
    exact harriving.others k c (ne_of_isLoop hc hloop harriving.call rfl) hc
  | guest i j point a x hmain harriving hx hsessions hguest =>
    exact harriving.others k c (ne_of_isLoop hc hloop harriving.call hguest.not_isLoop) hc
  | serving next hmain hproducer hfull hsessions hall => exact hall k c hc

/-- A task other than the producer goes on. -/
theorem Underway.run (h : Underway settings n (Singly once) d) (ht : t ≠ .producer)
    (hbefore : (d.apply (.run t)).beforeShutdown = true) :
    Underway settings n (Singly once) (d.apply (.run t)) := by
  -- what a task does without having work is to wait, to sweep or to begin the end
  by_cases hwork : d.hasWork t = true
  · exact (h.work (lasting_singly _ once) hwork).toUnderway
  by_cases hready : d.ready t = true
  swap
  · have hsame : d.apply (.run t) = d := if_neg hready
    rwa [hsame]
  have happly : d.apply (.run t) = d.step t := if_pos hready
  rw [happly] at hbefore ⊢
  cases t with
  | main =>
    -- the main task would begin to end
    have hmain : d.main = .serving := by
      by_contra hbusy
      exact hwork (Bool.and_eq_true_iff.mpr ⟨bne_iff_ne.mpr hbusy, hready⟩)
    have hends : d.mainStep.beforeShutdown = true := hbefore
    rw [serving_not_before hmain hready] at hends
    cases hends
  | registry t =>
    cases t with
    | worker i => exact absurd hready hwork
    | call k =>
      have hready' : d.registry.ready (.call k) = true := hready
      cases hc : d.registry.calls[k]? with
      | none => simp only [Registry.ready, hc, Bool.false_eq_true] at hready'
      | some c =>
        have hloop : c.isLoop = true := by
          by_contra hnot
          exact hwork (by simp [hasWork, hready', hc, hnot])
        exact h.loopStep hc (h.phase.isIdle_of_isLoop hc hloop) hready'
  | producer => exact absurd rfl ht
  | consumer i => exact absurd hready hwork

theorem Phase.length_le (h : Phase n d) : d.consumers.length ≤ d.settings.demo.subscribers := by
  cases h with
  | asking i j begun hmain harriving => exact harriving.place ▸ harriving.within.le
  | guest i j point c x hmain harriving => exact harriving.place ▸ harriving.within.le
  | serving next hmain hproducer hfull => exact hfull.le

/-- An action keeps the demonstration under way, unless it begins to end. -/
theorem Underway.apply (h : Underway settings n (Singly once) d) {later : Prop}
    (hbefore : (d.apply action).beforeShutdown = true)
    (hlater : later → once ∧
      (d.takesTurn action = true → ∀ i < settings.demo.subscribers, d.isIdle i = true)) :
    Underway settings (n + if d.takesTurn action then 1 else 0) (Singly later)
      (d.apply action) := by
  by_cases hturn : d.takesTurn action = true
  · rw [if_pos hturn]
    have hall (hl : later) : once ∧ ∀ i < d.consumers.length, d.isIdle i = true := by
      refine ⟨(hlater hl).1, fun i hi => (hlater hl).2 hturn i ?_⟩
      rw [← h.same]
      exact hi.trans_le h.phase.length_le
    cases action with
    | run t =>
      cases t with
      | producer =>
        have hready : d.producerReady = true := (Bool.and_eq_true_iff.mp hturn).1
        have happly : d.apply (.run .producer) = d.producerStep := if_pos hready
        rw [happly]
        exact h.producerStep hready hall
      | _ => cases hturn
    | elapse | signal => cases hturn
  · rw [if_neg hturn]
    have hstays : Underway settings n (Singly once) (d.apply action) := by
      cases action with
      | run t =>
        by_cases ht : t = .producer
        · subst ht
          have hwaits : ¬ d.ready .producer = true := by
            intro hready
            exact hturn (Bool.and_eq_true_iff.mpr ⟨hready, by rw [Calm.isCancelled h.calm]; rfl⟩)
          have hsame : d.apply (.run .producer) = d := if_neg hwaits
          rwa [hsame]
        · exact h.run ht hbefore
      | elapse ms => exact h.elapse ms
      | signal s => exact h.signal s
    exact ⟨hstays.toManned.imp fun i p hsingle hl => hsingle (hlater hl).1, hstays.sequence,
      hstays.phase⟩

/-! ### All actions -/

/-- Without pings a new registry has one loop, and nothing has been skipped. -/
theorem registry_new (hpings : settings.stream.pingEnabled = false) :
    let r := Registry.new settings.stream.config hooks
    Calm settings.stream.config r ∧ r.sessions = [] ∧ (∀ i, r.skips i = []) ∧
      ∀ (k : Nat) (c : Call), r.calls[k]? = some c → c.IsIdle := by
  intro r
  obtain ⟨es, hes, hnew⟩ := Registry.exists_new_eq settings.stream.config hooks
  have hr : r = _ := hnew
  have hcalm : Calm settings.stream.config r := by
    refine ⟨Registry.settled_new rfl rfl, ?_, ?_, ?_⟩
    all_goals rw [hr]; rfl
  refine ⟨hcalm, by rw [hr]; rfl, fun i => ?_, fun k c hc => ?_⟩
  · rw [hr]
    refine List.filterMap_eq_nil_iff.mpr fun e he => ?_
    cases e with
    | periodRaised | started => rfl
    | _ => exact (hes _ he).elim
  · have hcalls : r.calls =
        [.sweepLoop { period := settings.stream.config.clamped.sweepInterval.inNanos }] := by
      have hnone : settings.stream.config.clamped.pingInterval = none := by
        simp only [Config.clamped, StreamSettings.config, hpings, Bool.false_eq_true, if_false,
          Option.map_none]
      rw [hr]
      simp only [Registry.idle, Registry.loops, hnone, Option.map_none, Option.toList_none]
    rw [hcalls] at hc
    obtain rfl := List.mem_singleton.mp (List.mem_of_getElem? hc)
    rfl

/-- At the start the first subscriber is welcomed. -/
theorem underway_new (hpings : settings.stream.pingEnabled = false) :
    Underway settings 0 (Singly True) (Demo.new settings) := by
  obtain ⟨hcalm, hsessions, hskips, hidle⟩ := registry_new hpings
  have hmanned : Manned settings [] (Singly True) (({
      settings := settings
      registry := { config := settings.stream.config, hooks := hooks }
      main := .serving
      history := [.configured settings] } : Demo).withRegistry
        (.new settings.stream.config hooks)) :=
    ⟨rfl, hcalm, fun i c hc => (by cases hc), fun i _ => hskips i⟩
  exact (hmanned.welcome rfl (Nat.zero_le _) rfl rfl (congrArg List.length hsessions) hidle).1

/-- What the actions lead to until the demonstration begins to end. -/
theorem underway_run (hpings : settings.stream.pingEnabled = false)
    (hbefore : ((Demo.new settings).run actions).beforeShutdown = true) :
    Underway settings ((Demo.new settings).turns actions).length
      (Singly (∀ e ∈ (Demo.new settings).turns actions,
        ∀ i < settings.demo.subscribers, e.isIdle i = true)) ((Demo.new settings).run actions) := by
  -- along the actions, before each of which the end has not begun either
  induction actions using List.reverseRecOn with
  | nil =>
    have hnew := underway_new hpings
    exact ⟨hnew.toManned.imp fun i p hsingle _ => hsingle trivial, hnew.sequence, hnew.phase⟩
  | append_singleton rest action ih =>
    have hrun : (Demo.new settings).run (rest ++ [action]) =
        ((Demo.new settings).run rest).apply action := List.foldl_concat ..
    rw [hrun] at hbefore ⊢
    rw [turns_concat]
    have hlength {p : Prop} [Decidable p] (visits : List Demo) (e : Demo) :
        (visits ++ if p then [e] else []).length = visits.length + if p then 1 else 0 := by
      rw [List.length_append]
      split <;> rfl
    rw [hlength]
    refine (ih (beforeShutdown_of_apply hbefore)).apply hbefore fun hidle => ⟨?_, ?_⟩
    · exact fun e he => hidle e (List.mem_append_left _ he)
    · intro hturn
      refine hidle _ (List.mem_append_right _ ?_)
      rw [if_pos hturn]
      exact List.mem_singleton_self _

/-! ### What has been received -/

/-- What the consumer has received has been written. -/
theorem Seat.taken_prefix {taken skipped : List (Batch Nat)} {p : Portion} {x : Session}
    (h : Seat i taken skipped p x) : taken <+: written i p.begun := by
  have hconveys {frames : List (Batch Nat)} {senders : List Party}
      (hsink : x.sink.Conveys taken frames senders) : taken <+: frames := by
    obtain ⟨c, -, -, -, -, rfl⟩ := hsink
    exact List.prefix_append taken c.buffer
  cases h.stands with
  | fresh hw hg hbetween => exact hconveys hbetween.sink
  | inLine hw hg hbetween => exact hconveys hbetween.sink
  | asleep hw hg hs hbetween => exact hconveys hbetween.sink
  | writing numbers m run hw hg hp hwriting =>
    refine (hconveys hwriting.sink).trans ?_
    rw [hp, written, written, List.map_append]
    exact (List.prefix_cons_inj _).mpr (List.prefix_append _ _)

/-- Of what has been written to a subscriber the history comes first. -/
theorem exists_of_prefix_written {taken : List (Batch Nat)} {numbers : List Nat}
    (h : taken <+: written i numbers) :
    taken = [] ∨ ∃ live, live <+: numbers ∧ taken = written i live := by
  cases taken with
  | nil => exact .inl rfl
  | cons b rest =>
    obtain ⟨rfl, hrest⟩ := List.cons_prefix_cons.mp h
    right
    refine ⟨numbers.take rest.length, List.take_prefix _ _, ?_⟩
    rw [written, List.map_take, ← List.prefix_iff_eq_take.mp hrest]

theorem received_of_consumer {c : Consumer} (hc : d.consumers[i]? = some c) :
    d.received i = c.received.reverse := by
  simp only [Demo.received, hc, Option.map_some, Option.getD_some]

/-- The numbers that are new for a subscriber increase. -/
theorem share_newNumbers_increasing (i n : Nat) : (share i (newNumbers n)).Pairwise (· < ·) :=
  List.Pairwise.filter _ List.pairwise_lt_range'

theorem mem_share_announced_iff {s : Nat} :
    s ∈ share i (announced n) ↔ s ∈ share i (newNumbers n) := by
  rw [mem_share_iff, mem_share_iff, mem_announced_iff]

/-- When a subscriber is drained, all that has been announced for it has begun, and it has received
what was written. -/
theorem Seat.of_drained {taken skipped : List (Batch Nat)} {p : Portion} {x : Session}
    {c : Consumer} (h : Seat i taken skipped p x) (hx : d.registry.session? i = some x)
    (hc : d.consumers[i]? = some c) (hgoing : c.ended = false) (hdrained : d.isDrained i = true) :
    p.pending = 0 ∧ taken = written i p.begun := by
  obtain ⟨-, hworker, hconsumer⟩ := isDrained_iff.mp hdrained
  refine h.drained hx hworker ?_
  simp only [consumerReady, hc, hgoing, Bool.not_false, Bool.true_and, Bool.or_eq_false_iff]
    at hconsumer
  exact Option.isNone_iff_eq_none.mp (by simpa using hconsumer.1)

/-- What a subscriber has received while the demonstration is under way. -/
theorem Underway.receives (h : Underway settings n (Singly once) d) (i : Nat) :
    (d.received i = [] ∧ d.isDrained i = false) ∨ ∃ live, d.received i = written i live ∧
      (∀ s ∈ live, s ∈ share i (newNumbers n)) ∧ live.Pairwise (· ≤ ·) ∧
      (settings.stream.stalePolicy = .notAfter ∨ once → live.Pairwise (· < ·)) ∧
      (d.isDrained i = true → (∀ s ∈ share i (newNumbers n), s ∈ live) ∧
        (settings.stream.stalePolicy = .notAfter ∨ once → live = share i (newNumbers n) ∧
          (d.registry.skips i).Perm ((share i (repeats n)).map liveBatch))) := by
  cases hc : d.consumers[i]? with
  | none =>
    left
    refine ⟨by simp only [Demo.received, hc, Option.map_none, Option.getD_none], ?_⟩
    by_contra hnot
    have hdrained : d.isDrained i = true := by simpa using hnot
    exact absurd (isDrained_iff.mp hdrained).1 (Nat.not_lt.mpr (List.getElem?_eq_none_iff.mp hc))
  | some c =>
    obtain ⟨hgoing, x, p, hx, hseat, hfair, hsingle⟩ := h.seats i c hc
    have hstrict (hif : settings.stream.stalePolicy = .notAfter ∨ once) :
        p.begun.Pairwise (· < ·) := by
      rcases hif with hpolicy | honce
      · have hsorted := hfair.sorted
        rw [show settings.stream.config.stalePolicy = .notAfter from hpolicy] at hsorted
        exact hsorted
      · exact (hsingle honce).increasing
    rw [received_of_consumer hc]
    rcases exists_of_prefix_written hseat.taken_prefix with hnil | ⟨live, hlive, htaken⟩
    · refine .inl ⟨hnil, ?_⟩
      by_contra hnot
      have hdrained : d.isDrained i = true := by simpa using hnot
      have hall := (hseat.of_drained hx hc hgoing hdrained).2
      rw [hnil] at hall
      cases hall
    · right
      refine ⟨live, htaken, fun s hs => ?_, hfair.sorted_le.sublist hlive.sublist,
        fun hif => (hstrict hif).sublist hlive.sublist, fun hdrained => ?_⟩
      · exact mem_share_announced_iff.mp (hfair.mem_announced (.inl (hlive.subset hs)))
      · obtain ⟨hnone, hall⟩ := hseat.of_drained hx hc hgoing hdrained
        -- as many numbers have been received as have been written, so they are the same
        have hlengths : live.length = p.begun.length := by
          have hsame := congrArg List.length (htaken.symm.trans hall)
          simpa [written] using hsame
        obtain rfl := hlive.eq_of_length hlengths
        refine ⟨fun s hs => ?_, fun hif => ?_⟩
        · exact (hfair.mem_begun_iff hnone).mpr (mem_share_announced_iff.mpr hs)
        · have hbegun : p.begun = share i (newNumbers n) :=
            hfair.begun_eq hnone (hstrict hif) (share_newNumbers_increasing i n) fun s =>
              mem_share_announced_iff.symm
          refine ⟨hbegun, ?_⟩
          rw [hseat.skipped]
          exact (hfair.skipped_perm hnone (hbegun ▸ share_announced_perm i n)).map liveBatch

theorem Phase.beforeShutdown (h : Phase n d) : d.beforeShutdown = true := by
  unfold Demo.beforeShutdown
  cases h with
  | asking i j begun hmain => rw [hmain]
  | guest i j point c x hmain harriving hx hsessions hguest =>
    rcases hguest.main_eq with rfl | rfl
    all_goals rw [hmain]
  | serving next hmain => rw [hmain]

/-- Each subscriber receives its share. Let pings be off, let the tasks run in any order, and let
the demonstration not have begun to end; the producer has had `n` turns, the last one for the number
`historyLength + n`. A subscriber has received nothing, or one batch with those events of the
history that are for it, in order, and then live events, one in a batch: only such that are new
since and for it, in an order that does not decrease. When its worker and its consumer have nothing
to do it has received all of these. If the policy is to skip what is not after the cursor, or if all
workers were idle whenever the producer had its turn, no event is received twice; when there is
nothing to do, each has been received once, and what was skipped is what was published again.

The work does come to its end. There is a bound on the steps that the main task, the calls, the
workers and the consumers can take without the clock, and when none of them has anything to do,
there is nothing to do for any subscriber. -/
theorem subscribers_receive_their_share (settings : Settings) (actions : List DemoAction)
    (hpings : settings.stream.pingEnabled = false)
    (hbefore : ((Demo.new settings).run actions).beforeShutdown = true) :
    let d := (Demo.new settings).run actions
    let visits := (Demo.new settings).turns actions
    let n := visits.length
    let past (i : Nat) : Batch Nat := ⟨(share i (List.range' 1 historyLength)).map event⟩
    let once := settings.stream.stalePolicy = .notAfter ∨
      ∀ e ∈ visits, ∀ i < settings.demo.subscribers, e.isIdle i = true
    d.sequence = historyLength + n ∧
      (∀ i < settings.demo.subscribers,
        (d.received i = [] ∧ d.isDrained i = false) ∨
        ∃ live, d.received i = past i :: live.map liveBatch ∧
          (∀ s ∈ live, s ∈ share i (newNumbers n)) ∧ live.Pairwise (· ≤ ·) ∧
          (once → live.Pairwise (· < ·)) ∧
          (d.isDrained i = true → (∀ s ∈ share i (newNumbers n), s ∈ live) ∧
            (once → live = share i (newNumbers n) ∧
              (d.registry.skips i).Perm ((share i (repeats n)).map liveBatch)))) ∧
      ∃ most, ∀ tasks, d.haveWork tasks = true →
        let e := d.run (tasks.map .run)
        tasks.length ≤ most ∧ e.beforeShutdown = true ∧ e.sequence = d.sequence ∧
          ((∀ t, e.hasWork t = false) → ∀ i < settings.demo.subscribers, e.isDrained i = true) := by
  intro d visits n past once
  have h := underway_run hpings hbefore
  refine ⟨h.sequence, fun i _ => ?_, d.stepsLeft, fun tasks hworks => ?_⟩
  · have hpast : backfill i = past i := backfill_eq i
    rw [← hpast]
    exact h.receives i
  · obtain ⟨hafter, hleft⟩ := h.works (lasting_singly _ _) hworks
    exact ⟨(Nat.le_add_left _ _).trans hleft, hafter.phase.beforeShutdown,
      hafter.sequence.trans h.sequence.symm, fun hrest i hi => hafter.drained_of_rest hrest hi⟩

/-- Two subscribers are let in, and the producer has its turns, everybody coming to rest after
each. -/
def calmRun (turns : Nat) : List DemoAction :=
  let admission (k : Nat) : List DemoTask :=
    [.registry (.call k), .main, .registry (.call (k + 1)), .registry (.call (k + 1)), .main]
  let subscriber (i : Nat) : List DemoTask :=
    List.replicate 8 (.registry (.worker i)) ++ [.consumer i, .consumer i]
  let rest : List DemoAction := (subscriber 0 ++ subscriber 1).map .run ++ [.elapse 250]
  (admission 1 ++ admission 3).map .run ++ rest ++
    (List.replicate turns (.run .producer :: rest)).flatten

/-- After ten turns the number 34 has been published twice. The second subscriber has received it
once, although what is equal to the cursor is not skipped. -/
theorem second_subscriber_receives_34_once :
    let settings : Settings := { demo := { subscribers := 2 } }
    let d := (Demo.new settings).run (calmRun 10)
    (settings.stream.stalePolicy = .older ∧ settings.stream.pingEnabled = false ∧
      d.beforeShutdown = true ∧ d.isDrained 1 = true) ∧
      d.received 1 = backfill 1 :: [31, 34, 37, 40].map liveBatch ∧
      d.registry.skips 1 = [liveBatch 34] := by
  intro settings d
  have hstate : d.beforeShutdown = true ∧ d.isDrained 1 = true ∧
      ((Demo.new settings).turns (calmRun 10)).length = 10 := by decide +kernel
  have hidle : ∀ e ∈ (Demo.new settings).turns (calmRun 10), ∀ i < 2, e.isIdle i = true := by
    decide +kernel
  obtain ⟨hbefore, hdrained, hturns⟩ := hstate
  obtain ⟨-, hreceived, -⟩ := subscribers_receive_their_share settings (calmRun 10) rfl hbefore
  refine ⟨⟨rfl, rfl, hbefore, hdrained⟩, ?_⟩
  rcases hreceived 1 (by decide) with ⟨-, hnot⟩ | ⟨live, hlive, -, -, -, hall⟩
  · exact absurd hdrained (by rw [hnot]; exact nofun)
  · obtain ⟨hshare, hskips⟩ := (hall hdrained).2 (.inr hidle)
    rw [hturns] at hshare hskips
    have hnumbers : share 1 (newNumbers 10) = [31, 34, 37, 40] := by decide
    have hrepeats : share 1 (repeats 10) = [34] := by decide
    rw [hshare, hnumbers] at hlive
    rw [hrepeats] at hskips
    exact ⟨by rw [backfill_eq]; exact hlive, List.perm_singleton.mp hskips⟩

end Demo

end Multicast
