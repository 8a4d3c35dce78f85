import Multicast.Proofs.Demo.Course

/-! The subscribers of the demonstration are let in, one after the other, by the main task and its
calls. Those who have their seats keep them meanwhile, and the loop that sweeps finds nobody. -/

namespace Multicast

namespace Demo

open Registry (Tends)

variable {settings : Settings} {numbers : List Nat} {Q : Nat → Portion → Prop} {d e : Demo}
  {i j k n : Nat} {r v : Registry} {x y : Session} {c c' : Call}

/-! ### Those who have their seats -/

/-- The first `n` subscribers are in `v` as they are in `r`, and nothing has been skipped. -/
structure Spares (n : Nat) (r v : Registry) : Prop where
  session : ∀ t < n, v.session? t = r.session? t
  skips : ∀ t, v.skips t = r.skips t

theorem Spares.of_tends (h : Tends i r v y []) (hn : n ≤ i) : Spares n r v where
  session _ ht := h.session?_of_ne (Nat.ne_of_lt (Nat.lt_of_lt_of_le ht hn))
  skips t := (h.skips t).trans (by rw [ite_self, List.nil_append])

theorem Spares.of_sessions (hsessions : v.sessions = r.sessions)
    (hskips : ∀ t, v.skips t = r.skips t) : Spares n r v :=
  ⟨fun t _ => congrArg (·[t]?) hsessions, hskips⟩

theorem Manned.of_spares (h : Manned settings numbers Q d)
    (hspares : Spares d.consumers.length d.registry e.registry)
    (hcalm : Calm settings.stream.config e.registry) (hsettings : e.settings = d.settings)
    (hconsumers : e.consumers = d.consumers) : Manned settings numbers Q e := by
  refine ⟨hsettings.trans h.same, hcalm, fun t b hb => ?_, fun t ht => ?_⟩
  · rw [hconsumers] at hb
    obtain ⟨hgoing, hseat⟩ := h.seats t b hb
    have ht : t < d.consumers.length := (List.getElem?_eq_some_iff.mp hb).1
    exact ⟨hgoing, hseat.congr (hspares.session t ht) (hspares.skips t)⟩
  · rw [hspares.skips]
    exact h.unskipped t (hconsumers ▸ ht)

theorem sum_stepsLeftOf_of_spares (hspares : Spares n r v) :
    ∑ t ∈ Finset.range n, stepsLeftOf v t = ∑ t ∈ Finset.range n, stepsLeftOf r t := by
  refine Finset.sum_congr rfl fun t ht => ?_
  rw [stepsLeftOf, stepsLeftOf, hspares.session t (Finset.mem_range.mp ht)]

theorem stepsLeft_lt_of_spares (hspares : Spares d.consumers.length d.registry e.registry)
    (hsettings : e.settings = d.settings) (hconsumers : e.consumers = d.consumers)
    (hstage : e.stageLeft < d.stageLeft) : e.stepsLeft < d.stepsLeft := by
  rw [stepsLeft, stepsLeft, hconsumers, hsettings, sum_stepsLeftOf_of_spares hspares]
  exact Nat.add_lt_add_left hstage _

/-! ### The calls -/

theorem Arriving.idle (h : Arriving n i j c d) (hc : c.IsIdle) (k : Nat) (c' : Call)
    (hk : d.registry.calls[k]? = some c') : c'.IsIdle := by
  by_cases hkj : k = j
  · subst hkj
    obtain rfl := Option.some.inj (h.call.symm.trans hk)
    exact hc
  · exact h.others k c' hkj hk

/-- The call that lets the subscriber in goes on. -/
theorem Arriving.setCall (h : Arriving n i j c d)
    (hcalls : e.registry.calls = d.registry.calls.set j c') (hsettings : e.settings = d.settings)
    (hproducer : e.producer = d.producer) (hconsumers : e.consumers = d.consumers) :
    Arriving n i j c' e := by
  refine h.congr hsettings hproducer (congrArg List.length hconsumers) ?_ fun k c hk hc => ?_
  · rw [hcalls, List.getElem?_set_self (List.getElem?_eq_some_iff.mp h.call).1]
  · rw [hcalls, List.getElem?_set_ne (Ne.symm hk)] at hc
    exact h.others k c hk hc

/-- A call is made that lets a subscriber in. -/
theorem arriving_of_concat (hplace : e.consumers.length = i)
    (hwithin : i < e.settings.demo.subscribers) (hproducer : e.producer = .absent)
    (hcalls : e.registry.calls = r.calls ++ [c])
    (hidle : ∀ (k : Nat) (c : Call), r.calls[k]? = some c → c.IsIdle) :
    Arriving 0 i r.calls.length c e where
  place := hplace
  within := hwithin
  producer := hproducer
  silent := rfl
  call := by
    rw [hcalls]
    exact List.getElem?_concat_length
  others k c' hk hc := by
    rw [hcalls] at hc
    rcases Nat.lt_or_gt_of_ne hk with hlt | hgt
    · rw [List.getElem?_append_left hlt] at hc
      exact hidle k c' hc
    · rw [List.getElem?_eq_none (by rw [List.length_append]; exact hgt)] at hc
      cases hc

/-! ### A subscriber is asked for -/

theorem subscribe_of_calm {config : Config} (h : Calm config r) (i : Nat) :
    r.subscribe (subscription i) = (r.note (.beforeRegistered (peer i) [tenantOf i])).addCall
      (.subscribing (subscription i) ⟨r.now, .succeed⟩) := by
  have hbefore : r.hooks.before (subscription i) = .succeed := by
    rw [h.hooks]
    rfl
  simp only [Registry.subscribe, h.running, Bool.false_eq_true, if_false, hbefore]
  rfl

/-- The next subscriber is welcomed, or all have their seats and the producer begins. -/
theorem Manned.welcome (h : Manned settings [] Q d) (hi : d.consumers.length = i)
    (hle : i ≤ d.settings.demo.subscribers) (hsequence : d.sequence = historyLength)
    (hproducer : d.producer = .absent) (hsessions : d.registry.sessions.length = i)
    (hidle : ∀ (k : Nat) (c : Call), d.registry.calls[k]? = some c → c.IsIdle) :
    Underway settings 0 Q (d.welcome i) ∧ (d.welcome i).stepsLeft ≤
      ∑ t ∈ Finset.range i, stepsLeftOf d.registry t +
        10 * (d.settings.demo.subscribers - i) + 9 := by
  unfold Demo.welcome
  split
  · next hlt =>
    have hsubscribe := subscribe_of_calm h.calm i
    have hspares : Spares d.consumers.length d.registry
        (d.registry.subscribe (subscription i)) := by
      rw [hsubscribe]
      exact .of_sessions rfl fun t => Registry.skips_note rfl
    have hcalm : Calm settings.stream.config (d.registry.subscribe (subscription i)) := by
      refine h.calm.apply (.subscribe (subscription i)) rfl ?_ ?_ ?_
      all_goals rw [hsubscribe]; rfl
    have hcalls : (d.callSubscribe i).registry.calls = d.registry.calls ++
        [.subscribing (subscription i) ⟨d.registry.now, .succeed⟩] := by
      show (d.registry.subscribe (subscription i)).calls = _
      rw [hsubscribe]
      rfl
    have hnow : (d.callSubscribe i).registry.now = d.registry.now := by
      show (d.registry.subscribe (subscription i)).now = _
      rw [hsubscribe]
      rfl
    have hlength : (d.callSubscribe i).registry.sessions.length = i := by
      show (d.registry.subscribe (subscription i)).sessions.length = i
      rw [hsubscribe]
      exact hsessions
    have harriving : Arriving 0 i d.registry.calls.length _ (d.callSubscribe i) :=
      arriving_of_concat hi hlt hproducer hcalls hidle
    refine ⟨⟨h.of_spares hspares hcalm rfl rfl, hsequence,
      .asking i _ d.registry.now rfl harriving hnow.ge hlength⟩, ?_⟩
    have hstage : (d.callSubscribe i).stageLeft ≤ 9 := by
      show (if (d.callSubscribe i).registry.isOver d.registry.calls.length then 8 else 9) ≤ 9
      split
      · exact Nat.le_succ 8
      · exact Nat.le_refl 9
    show ∑ t ∈ Finset.range d.consumers.length, stepsLeftOf (d.callSubscribe i).registry t +
      10 * (d.settings.demo.subscribers - d.consumers.length) + (d.callSubscribe i).stageLeft ≤ _
    rw [sum_stepsLeftOf_of_spares (v := (d.callSubscribe i).registry) hspares, hi]
    exact Nat.add_le_add_left hstage _
  · next hge =>
    have hfull : d.consumers.length = d.settings.demo.subscribers := by omega
    refine ⟨⟨h.of_spares (.of_sessions rfl fun _ => rfl) h.calm rfl rfl, hsequence,
      .serving _ rfl rfl hfull (hsessions.trans hi.symm) hidle⟩, ?_⟩
    show ∑ t ∈ Finset.range d.consumers.length, stepsLeftOf d.registry t +
      10 * (d.settings.demo.subscribers - d.consumers.length) + 0 ≤ _
    rw [hi]
    exact Nat.le_add_right _ 9

/-- The callback lets the subscriber in. -/
theorem Underway.enrol (h : Underway settings n Q d) (hmain : d.main = .subscribing i j)
    {begun : Nat}
    (harriving : Arriving n i j (.subscribing (subscription i) ⟨begun, .succeed⟩) d)
    (hdue : begun ≤ d.registry.now) (hsessions : d.registry.sessions.length = i) :
    GoesOn settings n Q d (d.step (.registry (.call j))) := by
  have hstep : d.registry.step (.call j) = (d.registry.enrol (subscription i)).1.setCall j
      (.returned (.ok (.subscribed i))) := by
    simp only [Registry.step, harriving.call, Registry.callStep, Registry.subscribeStep,
      HookRun.step, h.calm.running, Bool.false_eq_true, if_false]
    exact congrArg (fun s => (d.registry.enrol (subscription i)).1.setCall j
      (.returned (.ok (.subscribed s)))) hsessions
  have hready : d.registry.ready (.call j) = true := by
    simp only [Registry.ready, harriving.call, Registry.callReady]
    exact decide_eq_true hdue
  obtain ⟨v, hv⟩ : ∃ v, v = d.registry.step (.call j) := ⟨_, rfl⟩
  have hnew : v.sessions = d.registry.sessions ++
      [Session.ofSubscription (subscription i) d.registry.config.queueCapacity] := by
    rw [hv, hstep]
    rfl
  -- the newcomer comes after all who have their seats
  have hspares : Spares d.consumers.length d.registry v := by
    refine ⟨fun t ht => ?_, fun t => ?_⟩
    · rw [Registry.session?, hnew]
      exact List.getElem?_append_left (by rw [hsessions, ← harriving.place]; exact ht)
    · rw [hv, hstep]
      exact Registry.skips_note rfl
  have hcalm : Calm settings.stream.config v := by
    refine h.calm.apply _ ((apply_run hready).trans hv.symm) ?_ ?_ ?_
    all_goals rw [hv, hstep]; rfl
  have hcalls : v.calls = d.registry.calls.set j (.returned (.ok (.subscribed i))) := by
    rw [hv, hstep]
    rfl
  have harrived : Arriving n i j (.returned (.ok (.subscribed i))) (d.withRegistry v) :=
    harriving.setCall hcalls rfl rfl rfl
  show GoesOn settings n Q d (d.withRegistry (d.registry.step (.call j)))
  rw [← hv]
  refine ⟨⟨h.toManned.of_spares hspares hcalm rfl rfl, h.sequence, .guest i j _ _ _ hmain harrived
    ?_ ?_ (.enrolled (newcomer_ofSubscription i d.registry.config.queueCapacity))⟩, ?_⟩
  · show v.sessions[i]? = _
    rw [hnew, ← hsessions]
    exact List.getElem?_concat_length
  · show v.sessions.length = i + 1
    rw [hnew, List.length_append, hsessions]
    rfl
  · refine stepsLeft_lt_of_spares hspares rfl rfl ?_
    rw [stageLeft_of_asking hmain harriving.call,
      stageLeft_of_enrolled (d := d.withRegistry v) hmain harrived.call]
    exact Nat.lt_succ_self 8

/-! ### A subscriber is sent its history -/

/-- The main task has the history sent. -/
theorem Underway.sendHistory (h : Underway settings n Q d) (hmain : d.main = .subscribing i j)
    (harriving : Arriving n i j (.returned (.ok (.subscribed i))) d)
    (hx : d.registry.session? i = some x) (hsessions : d.registry.sessions.length = i + 1)
    (hnew : Newcomer i [] [] [] none x) : GoesOn settings n Q d d.mainStep := by
  have hstep : d.mainStep = { d.withRegistry (d.registry.sendHistorical i (backfill i)) with
      main := .backfilling i d.registry.calls.length } := by
    simp only [Demo.mainStep, hmain, harriving.call]
  obtain ⟨y, ht, hwaits, hcalls⟩ := hnew.sendHistorical hx h.calm.tokens
  have hspares := Spares.of_tends ht harriving.place.le
  have hcalm := h.calm.apply (.sendHistorical i (backfill i)) rfl ht.hooks ht.tokens
    ht.stopped
  obtain rfl := harriving.silent
  have harrived :
      Arriving 0 i d.registry.calls.length (.sending (historyTo i none)) d.mainStep := by
    rw [hstep]
    exact arriving_of_concat harriving.place harriving.within harriving.producer hcalls
      (harriving.idle trivial)
  have hmain' : d.mainStep.main = .backfilling i d.registry.calls.length := by rw [hstep]
  have hless : d.mainStep.stageLeft < d.stageLeft := by
    rw [stageLeft_of_enrolled hmain harriving.call, stageLeft_of_sending hmain' harrived.call]
    exact Nat.lt_succ_self 7
  rw [hstep] at harrived hmain' hless ⊢
  exact ⟨⟨h.toManned.of_spares hspares hcalm rfl rfl, h.sequence, .guest i _ _ _ y hmain' harrived
    ht.session?_self (ht.length_eq.trans hsessions) (.waiting hwaits)⟩,
    stepsLeft_lt_of_spares hspares rfl rfl hless⟩

/-- The call that sends the history goes on. -/
theorem Underway.callStep_of_tends (h : Underway settings n Q d) (hmain : d.main = .backfilling i j)
    (harriving : Arriving n i j c d) (hsessions : d.registry.sessions.length = i + 1)
    (hready : d.registry.ready (.call j) = true) (hv : d.registry.step (.call j) = v)
    (ht : Tends i d.registry v y []) (hcalls : v.calls = d.registry.calls.set j c')
    (hguest : Guest i j y (.backfilling i j) c')
    (hless : ∀ e : Demo, e.main = .backfilling i j → e.registry.calls[j]? = some c' →
      e.stageLeft < d.stageLeft) :
    GoesOn settings n Q d (d.step (.registry (.call j))) := by
  have hspares := Spares.of_tends ht harriving.place.le
  have hcalm := h.calm.apply _ ((apply_run hready).trans hv) ht.hooks ht.tokens ht.stopped
  have harrived : Arriving n i j c' (d.withRegistry v) := harriving.setCall hcalls rfl rfl rfl
  show GoesOn settings n Q d (d.withRegistry (d.registry.step (.call j)))
  rw [hv]
  exact ⟨⟨h.toManned.of_spares hspares hcalm rfl rfl, h.sequence, .guest i j _ c' y hmain
    harrived ht.session?_self (ht.length_eq.trans hsessions) hguest⟩,
    stepsLeft_lt_of_spares hspares rfl rfl (hless _ hmain harrived.call)⟩

/-- The write of the history begins. -/
theorem Underway.beginHistory (h : Underway settings n Q d) (hmain : d.main = .backfilling i j)
    (harriving : Arriving n i j (.sending (historyTo i none)) d)
    (hx : d.registry.session? i = some x) (hsessions : d.registry.sessions.length = i + 1)
    (hwaits : Newcomer i [] [.call j] [] none x) :
    d.registry.ready (.call j) = true ∧ GoesOn settings n Q d (d.step (.registry (.call j))) := by
  obtain ⟨y, run, ht, hrunning, hpoint, hkeep, hframe, hwrites⟩ := hwaits.begin hx h.calm.process
  have hready : d.registry.ready (.call j) = true := by
    have hholds : x.queue.gate.holds (.call j) = true := by
      rw [Gate.holds_iff, hwaits.line, List.head?_cons]
    simp only [Registry.ready, harriving.call, Registry.callReady, Registry.directReady, historyTo,
      hx, hholds]
  obtain ⟨v, hv⟩ : ∃ v, v = (d.registry.directStep (.call j) (historyTo i none)).1.setCall j
      (.sending (historyTo i (some run))) := ⟨_, rfl⟩
  have hstep : d.registry.step (.call j) = v := by
    simp only [Registry.step, harriving.call, Registry.callStep, hv]
    rw [← Prod.mk.eta (p := d.registry.directStep (.call j) (historyTo i none)), hrunning]
    rfl
  have hcalls : v.calls = d.registry.calls.set j (.sending (historyTo i (some run))) := by
    rw [hv, Registry.setCall, (Registry.within_directStep (historyTo i none)).calls]
  refine ⟨hready, h.callStep_of_tends hmain harriving hsessions hready hstep ?_ hcalls
    (.writing run hpoint hkeep hframe hwrites) fun e hmain' hcall => ?_⟩
  · rw [hv]
    exact ht.setCall j _
  · rw [stageLeft_of_sending hmain harriving.call, stageLeft_of_sending hmain' hcall]
    exact Nat.lt_succ_self 6

/-- The write of the history is over. -/
theorem Underway.finishHistory (h : Underway settings n Q d) (hmain : d.main = .backfilling i j)
    {run : Delivery} (harriving : Arriving n i j (.sending (historyTo i (some run))) d)
    (hx : d.registry.session? i = some x) (hsessions : d.registry.sessions.length = i + 1)
    (hpoint : run.point = .writing .sending) (hkeep : run.keepAlive = false)
    (hframe : run.frame = backfill i) (hwrites : Newcomer i [] [.call j] [.call j] none x) :
    d.registry.ready (.call j) = true ∧ GoesOn settings n Q d (d.step (.registry (.call j))) := by
  obtain ⟨y, ht, hdone, hsent⟩ := hwrites.finish hx hpoint hkeep hframe
  have hready : d.registry.ready (.call j) = true := by
    simp only [Registry.ready, harriving.call, Registry.callReady, Registry.directReady, historyTo,
      Registry.deliveryReady, hpoint, hx, hwrites.sink.ready_of_empty]
  obtain ⟨v, hv⟩ : ∃ v, v = ((d.registry.directStep (.call j) (historyTo i (some run))).1.count
      (·.batchPublished .historical 1)).setCall j (.returned (.ok (.flag true))) := ⟨_, rfl⟩
  have hstep : d.registry.step (.call j) = v := by
    simp only [Registry.step, harriving.call, Registry.callStep, hv]
    rw [← Prod.mk.eta (p := d.registry.directStep (.call j) (historyTo i (some run))), hdone]
    rfl
  have hcalls : v.calls = d.registry.calls.set j (.returned (.ok (.flag true))) := by
    rw [hv, Registry.setCall, Registry.count,
      (Registry.within_directStep (historyTo i (some run))).calls]
  refine ⟨hready, h.callStep_of_tends hmain harriving hsessions hready hstep ?_ hcalls
    (.sent hsent) fun e hmain' hcall => ?_⟩
  · rw [hv]
    exact (ht.count _).setCall j _
  · rw [stageLeft_of_sending hmain harriving.call, stageLeft_of_sent hmain' hcall]
    exact Nat.lt_succ_self 5

/-! ### A subscriber takes its seat -/

/-- A subscriber more has its seat. -/
theorem Manned.addSeat (h : Manned settings numbers Q d) {b : Consumer}
    (hspares : Spares d.consumers.length d.registry e.registry)
    (hcalm : Calm settings.stream.config e.registry) (hsettings : e.settings = d.settings)
    (hconsumers : e.consumers = d.consumers ++ [b]) (hgoing : b.ended = false)
    (hseated : Seated settings.stream.config.stalePolicy numbers (Q d.consumers.length)
      d.consumers.length b.received.reverse e.registry) : Manned settings numbers Q e := by
  refine ⟨hsettings.trans h.same, hcalm, fun t a ha => ?_, fun t ht => ?_⟩
  · rw [hconsumers] at ha
    rcases Nat.lt_or_ge t d.consumers.length with hlt | hge
    · rw [List.getElem?_append_left hlt] at ha
      obtain ⟨hstays, hseat⟩ := h.seats t a ha
      exact ⟨hstays, hseat.congr (hspares.session t hlt) (hspares.skips t)⟩
    · have hlast : t = d.consumers.length := by
        have hbound := (List.getElem?_eq_some_iff.mp ha).1
        rw [List.length_append] at hbound
        exact Nat.le_antisymm (Nat.lt_succ_iff.mp hbound) hge
      rw [hlast, List.getElem?_concat_length] at ha
      obtain rfl := Option.some.inj ha
      rw [hlast]
      exact ⟨hgoing, hseated⟩
  · rw [hconsumers, List.length_append] at ht
    rw [hspares.skips]
    exact h.unskipped t ((Nat.le_add_right _ 1).trans ht)

/-- The main task has the subscriber activated and turns to the next one. -/
theorem Underway.takeSeat (h : Underway settings n Q d)
    (hlasting : Lasting settings.stream.stalePolicy Q) (hmain : d.main = .backfilling i j)
    (harriving : Arriving n i j (.returned (.ok (.flag true))) d)
    (hx : d.registry.session? i = some x) (hsessions : d.registry.sessions.length = i + 1)
    (hsent : Newcomer i [backfill i] [] [] (some (lastPast i)) x) :
    GoesOn settings n Q d d.mainStep := by
  obtain ⟨y, ht, hseat, hthree⟩ := hsent.activate hx
  obtain ⟨v, hv⟩ : ∃ v, v = (d.registry.activate i).1 := ⟨_, rfl⟩
  have hcalls : v.calls = d.registry.calls := hv ▸ Registry.within_activate.calls
  have hstep : d.mainStep =
      ({ d.withRegistry v with consumers := d.consumers ++ [{}] } : Demo).welcome (i + 1) := by
    simp only [Demo.mainStep, hmain, hv]
    rfl
  rw [← hv] at ht
  obtain rfl := harriving.silent
  obtain rfl := harriving.place
  have hcalm : Calm settings.stream.config v :=
    h.calm.apply (.activate d.consumers.length) hv.symm ht.hooks ht.tokens ht.stopped
  have hspares : Spares d.consumers.length d.registry v := .of_tends ht (Nat.le_refl _)
  have hseated : Seated settings.stream.config.stalePolicy [] (Q d.consumers.length)
      d.consumers.length [] v := by
    refine ⟨y, {}, ht.session?_self, ?_, .empty _ _, hlasting.start _⟩
    rw [hspares.skips, h.unskipped _ (Nat.le_refl _)]
    exact hseat
  have hmanned : Manned settings [] Q
      { d.withRegistry v with consumers := d.consumers ++ [{}] } :=
    h.toManned.addSeat hspares hcalm rfl rfl rfl hseated
  obtain ⟨hwelcomed, hleft⟩ := hmanned.welcome (i := d.consumers.length + 1) List.length_append
    harriving.within h.sequence harriving.producer (ht.length_eq.trans hsessions) fun k c hk =>
      harriving.idle trivial k c (hcalls ▸ hk)
  rw [hstep]
  refine ⟨hwelcomed, hleft.trans_lt ?_⟩
  -- the new seat costs three steps, and ten were set aside for it
  have hlast : stepsLeftOf v d.consumers.length = 3 := by
    rw [stepsLeftOf, ht.session?_self]
    exact hthree
  have hwithin := harriving.within
  show ∑ t ∈ Finset.range (d.consumers.length + 1), stepsLeftOf v t +
    10 * (d.settings.demo.subscribers - (d.consumers.length + 1)) + 9 < d.stepsLeft
  rw [Finset.sum_range_succ, sum_stepsLeftOf_of_spares hspares, hlast, stepsLeft,
    stageLeft_of_sent hmain harriving.call]
  omega

end Demo

end Multicast
