import Multicast.Proofs.Registry.StoppedForGood

/-! What the loops of a registry have in common. Of a loop its period, the time at which its next
pass is due and whether a pass is under way are a timer. A timer moves when a pass begins, goes on
or ends; it stops with the registry, or when a pass crashes. -/

namespace Multicast

/-- A loop without what its passes do. -/
structure Timer where
  period : Nat
  next : Nat
  busy : Bool
  deriving DecidableEq

/-- The time at which a pass is due after one that begins now. -/
def Timer.after (t : Timer) (now : Nat) : Nat := now + t.period - (now - t.next) % t.period

def Loop.timer {π : Type} (l : Loop π) : Timer := ⟨l.period, l.next, l.pass.isSome⟩

theorem Loop.idle_iff {π : Type} {l : Loop π} : l.timer.busy = false ↔ l.pass = none :=
  Option.isSome_eq_false_iff.trans Option.isNone_iff_eq_none

def Call.timer? : Call → Option Timer
  | .sweepLoop l => some l.timer
  | .pingLoop l => some l.timer
  | _ => none

namespace Call

variable {c c' : Call}

/-- A call that serves no loop is none. -/
theorem Serves.timer?_eq_none {K : Purpose → Prop} (h : c.Serves K) (hs : ¬ K .sweepLoop)
    (hp : ¬ K .pingLoop) : c.timer? = none := by
  cases c with
  | sweepLoop => exact absurd (h _ rfl) hs
  | pingLoop => exact absurd (h _ rfl) hp
  | _ => rfl

theorem Leads.timer?_eq_none (h : c.Leads c') (hc : c.timer? = none) : c'.timer? = none := by
  refine Serves.timer?_eq_none h ?_ ?_
  · cases c with
    | sweepLoop => cases hc
    | _ => exact nofun
  · cases c with
    | pingLoop => cases hc
    | _ => exact nofun

end Call

namespace Registry

/-- The timer of the loop with the number `i`. -/
def timer? (r : Registry) (i : Nat) : Option Timer := (r.calls[i]?).bind Call.timer?

/-- Whether the loop with the number `i` waits for a pass that is due. -/
def isDue (r : Registry) (i : Nat) : Bool :=
  (r.timer? i).any fun t => !t.busy && decide (t.next ≤ r.nanos)

/-- Whether the loop with the number `i` begins a pass. -/
def beginsPass (r : Registry) (i : Nat) : Action → Bool
  | .run (.call j) => j == i && r.isDue i && !r.stopped
  | .tick j => j == i && r.isDue i
  | _ => false

/-- What becomes of the timer of the loop with the number `i` in one action. -/
inductive TimerMove (r : Registry) (i : Nat) (action : Action) (v : Registry) : Prop
  | begins {t : Timer} (begin : r.beginsPass i action = true) (was : r.timer? i = some t)
      (idle : t.busy = false) (due : t.next ≤ r.nanos) (busy : Bool)
      (now : v.timer? i = some ⟨t.period, t.after r.nanos, busy⟩)
  | goesOn {t : Timer} (begin : r.beginsPass i action = false) (was : r.timer? i = some t)
      (busy : Bool) (under : t.busy = true) (now : v.timer? i = some ⟨t.period, t.next, busy⟩)
  | stays (begin : r.beginsPass i action = false) (now : v.timer? i = r.timer? i)
  | ends {t : Timer} (begin : r.beginsPass i action = false) (was : r.timer? i = some t)
      (now : v.timer? i = none) (why : r.stopped = true ∨ v.calls[i]? = some .crashed)

variable {T : Terms} {r u v : Registry} {i : Nat} {c c' : Call} {t : Timer} {action : Action}
  {config : Config} {hooks : Hooks}

/-! ### Loops and their timers -/

theorem timer?_of_call (hc : r.calls[i]? = some c) : r.timer? i = c.timer? := by
  rw [timer?, hc, Option.bind_some]

theorem exists_call_of_timer? (h : r.timer? i = some t) :
    ∃ c, r.calls[i]? = some c ∧ c.timer? = some t := Option.bind_eq_some_iff.mp h

theorem timer?_setCall (hi : i < r.calls.length) (c : Call) :
    (r.setCall i c).timer? i = c.timer? :=
  timer?_of_call (List.getElem?_set_self hi)

theorem isDue_iff : r.isDue i = true ↔
    ∃ t, r.timer? i = some t ∧ t.busy = false ∧ t.next ≤ r.nanos := by
  unfold isDue
  cases r.timer? i with
  | none => simp
  | some t => simp

/-- A loop begins a pass when it is run or ticks; after the registry has stopped it only ticks. -/
theorem beginsPass_iff : r.beginsPass i action = true ↔
    r.isDue i = true ∧ (action = .run (.call i) ∧ r.stopped = false ∨ action = .tick i) := by
  unfold beginsPass
  split
  · simp only [Bool.and_eq_true, Bool.not_eq_true', beq_iff_eq, Action.run.injEq, Task.call.injEq,
      reduceCtorEq, or_false]
    tauto
  · simp only [Bool.and_eq_true, beq_iff_eq, Action.tick.injEq, reduceCtorEq, false_and, false_or]
    tauto
  · rename_i hrun htick
    constructor
    · exact nofun
    · rintro ⟨-, ⟨rfl, -⟩ | rfl⟩
      · exact absurd rfl (hrun i)
      · exact absurd rfl (htick i)

/-- What a loop that begins a pass does. -/
theorem apply_of_beginsPass (h : r.beginsPass i action = true) :
    (∃ l, r.calls[i]? = some (.sweepLoop l) ∧ l.pass = none ∧ l.next ≤ r.nanos ∧
      r.apply action = r.sweepTick i l) ∨
    ∃ l, r.calls[i]? = some (.pingLoop l) ∧ l.pass = none ∧ l.next ≤ r.nanos ∧
      r.apply action = r.pingTick i l := by
  obtain ⟨hdue, hwho⟩ := beginsPass_iff.mp h
  obtain ⟨t, ht, hidle, hnext⟩ := isDue_iff.mp hdue
  obtain ⟨c, hc, hct⟩ := exists_call_of_timer? ht
  cases c with
  | sweepLoop l =>
    obtain rfl := Option.some.inj hct
    have hpass : l.pass = none := Loop.idle_iff.mp hidle
    refine .inl ⟨l, hc, hpass, hnext, ?_⟩
    rcases hwho with ⟨rfl, hopen⟩ | rfl
    · have hready : r.callReady i (.sweepLoop l) = true := by
        simp only [callReady, hpass, hopen, Bool.false_or]
        exact decide_eq_true hnext
      rw [apply_call hc hready]
      simp only [callStep, sweepLoopStep, hpass, hopen, Bool.false_eq_true, if_false]
    · have hready : (l.pass.isNone && decide (l.next ≤ r.nanos)) = true := by
        simp only [hpass, Option.isNone_none, Bool.true_and]
        exact decide_eq_true hnext
      simp only [apply, tick, hc, hready, if_true]
  | pingLoop l =>
    obtain rfl := Option.some.inj hct
    have hpass : l.pass = none := Loop.idle_iff.mp hidle
    refine .inr ⟨l, hc, hpass, hnext, ?_⟩
    rcases hwho with ⟨rfl, hopen⟩ | rfl
    · have hready : r.callReady i (.pingLoop l) = true := by
        simp only [callReady, hpass, hopen, Bool.false_or]
        exact decide_eq_true hnext
      rw [apply_call hc hready]
      simp only [callStep, pingLoopStep, hpass, hopen, Bool.false_eq_true, if_false]
    · have hready : (l.pass.isNone && decide (l.next ≤ r.nanos)) = true := by
        simp only [hpass, Option.isNone_none, Bool.true_and]
        exact decide_eq_true hnext
      simp only [apply, tick, hc, hready, if_true]
  | _ => cases hct

/-! ### Single moves -/

/-- A pass leaves the loop that sweeps with its timer, or crashes. -/
theorem timer?_sweepLoopProgress (l : Loop SweepPass) {o : Registry × Progress SweepPass Nat}
    (hi : i < o.1.calls.length) :
    (∃ busy, (sweepLoopProgress i l o).timer? i = some ⟨l.period, l.next, busy⟩) ∨
      o.2 = .crashed ∧ (sweepLoopProgress i l o).timer? i = none ∧
        (sweepLoopProgress i l o).calls[i]? = some .crashed := by
  obtain ⟨w, progress⟩ := o
  cases progress with
  | running pass => exact .inl ⟨true, timer?_setCall hi _⟩
  | done n => exact .inl ⟨false, timer?_setCall hi _⟩
  | crashed => exact .inr ⟨rfl, timer?_setCall hi _, List.getElem?_set_self hi⟩

/-- A round leaves the loop that pings with its timer, or crashes. -/
theorem timer?_pingLoopProgress (l : Loop PingPass) {o : Registry × Progress PingPass Nat}
    (hi : i < o.1.calls.length) :
    (∃ busy, (pingLoopProgress i l o).timer? i = some ⟨l.period, l.next, busy⟩) ∨
      o.2 = .crashed ∧ (pingLoopProgress i l o).timer? i = none ∧
        (pingLoopProgress i l o).calls[i]? = some .crashed := by
  obtain ⟨w, progress⟩ := o
  cases progress with
  | running pass => exact .inl ⟨true, timer?_setCall hi _⟩
  | done n => exact .inl ⟨false, timer?_setCall (r := w.note (.pingPassFinished n)) hi _⟩
  | crashed => exact .inr ⟨rfl, timer?_setCall hi _, List.getElem?_set_self hi⟩

theorem beginSweep_ne_crashed (r : Registry) : r.beginSweep.2 ≠ .crashed := by
  obtain ⟨gone, -, hswept⟩ := effect_nextSweep (r := r) 0 (r.members.filter r.isCancelled)
  intro hcrashed
  rw [← beginSweep, hcrashed] at hswept
  cases hswept

theorem beginPings_ne_crashed (r : Registry) (p : Party) : (r.beginPings p).2 ≠ .crashed := by
  unfold beginPings closePings
  dsimp only
  split
  · exact nofun
  · exact nofun

/-- A loop that begins a pass goes on to the time at which the next one is due. -/
theorem timerMove_begin (h : r.beginsPass i action = true) :
    TimerMove r i action (r.apply action) := by
  rcases apply_of_beginsPass h with ⟨l, hc, hpass, hdue, happly⟩ | ⟨l, hc, hpass, hdue, happly⟩
  · have hlt : i < r.beginSweep.1.calls.length := by
      obtain ⟨gone, heffect, -⟩ := effect_nextSweep (r := r) 0 (r.members.filter r.isCancelled)
      rw [beginSweep, heffect.calls]
      exact (List.getElem?_eq_some_iff.mp hc).1
    have hidle : l.timer.busy = false := Loop.idle_iff.mpr hpass
    rcases timer?_sweepLoopProgress { l with next := l.after r.nanos } hlt with
      ⟨busy, hnow⟩ | ⟨hcrashed, -⟩
    · exact .begins h (timer?_of_call hc) hidle hdue busy (happly ▸ hnow)
    · exact absurd hcrashed (beginSweep_ne_crashed r)
  · have hlt : i < (r.beginPings (.call i)).1.calls.length := by
      have heffect : Effect none [] [] r (r.beginPings (.call i)).1 := effect_beginPings
      rw [heffect.calls]
      exact (List.getElem?_eq_some_iff.mp hc).1
    have hidle : l.timer.busy = false := Loop.idle_iff.mpr hpass
    rcases timer?_pingLoopProgress { l with next := l.after r.nanos } hlt with
      ⟨busy, hnow⟩ | ⟨hcrashed, -⟩
    · exact .begins h (timer?_of_call hc) hidle hdue busy (happly ▸ hnow)
    · exact absurd hcrashed (beginPings_ne_crashed r (.call i))

/-- A loop that waits begins a pass when it is run and due, unless it was woken by the stop. -/
theorem stopped_of_not_beginsPass (ht : r.timer? i = some t) (hidle : t.busy = false)
    (hb : r.beginsPass i (.run (.call i)) = false)
    (hdue : (r.stopped || decide (t.next ≤ r.nanos)) = true) : r.stopped = true := by
  by_contra hopen
  rw [Bool.not_eq_true] at hopen
  rw [hopen, Bool.false_or] at hdue
  have hbegins : r.beginsPass i (.run (.call i)) = true := beginsPass_iff.mpr
    ⟨isDue_iff.mpr ⟨t, ht, hidle, of_decide_eq_true hdue⟩, .inl ⟨rfl, hopen⟩⟩
  exact Bool.false_ne_true (hb.symm.trans hbegins)

/-- A loop that is run and begins no pass goes on with the one under way, or ends because the
registry has stopped. -/
theorem timerMove_run (hc : r.calls[i]? = some c) (ht : c.timer? = some t)
    (hb : r.beginsPass i (.run (.call i)) = false) (hready : r.callReady i c = true) :
    TimerMove r i (.run (.call i)) (r.apply (.run (.call i))) := by
  have hlt : i < r.calls.length := (List.getElem?_eq_some_iff.mp hc).1
  have hwas : r.timer? i = some t := (timer?_of_call hc).trans ht
  rw [apply_call hc hready]
  cases c with
  | sweepLoop l =>
    obtain rfl := Option.some.inj ht
    cases hpass : l.pass with
    | some pass =>
      obtain ⟨gone, heffect, -⟩ := effect_sweepStep (r := r) pass
      simp only [callStep, sweepLoopStep, hpass]
      rcases timer?_sweepLoopProgress (i := i) l (heffect.calls ▸ hlt) with
        ⟨busy, hnow⟩ | ⟨-, hnow, hcrashed⟩
      · exact .goesOn hb hwas busy (by rw [Loop.timer, hpass]; rfl) hnow
      · exact .ends hb hwas hnow (.inr hcrashed)
    | none =>
      simp only [callReady, hpass] at hready
      have hs : r.stopped = true :=
        stopped_of_not_beginsPass hwas (Loop.idle_iff.mpr hpass) hb hready
      simp only [callStep, sweepLoopStep, hpass, hs, if_true]
      exact .ends hb hwas (timer?_setCall (r := r.note _) hlt _) (.inl hs)
  | pingLoop l =>
    obtain rfl := Option.some.inj ht
    cases hpass : l.pass with
    | some pass =>
      obtain ⟨gone, heffect⟩ := delivers_pingStep (r := r) (p := .call i) pass
      simp only [callStep, pingLoopStep, hpass]
      rcases timer?_pingLoopProgress (i := i) l (heffect.calls ▸ hlt) with
        ⟨busy, hnow⟩ | ⟨-, hnow, hcrashed⟩
      · exact .goesOn hb hwas busy (by rw [Loop.timer, hpass]; rfl) hnow
      · exact .ends hb hwas hnow (.inr hcrashed)
    | none =>
      simp only [callReady, hpass] at hready
      have hs : r.stopped = true :=
        stopped_of_not_beginsPass hwas (Loop.idle_iff.mpr hpass) hb hready
      simp only [callStep, pingLoopStep, hpass, hs, if_true]
      exact .ends hb hwas (timer?_setCall (r := r.note _) hlt _) (.inl hs)
  | _ => cases ht

/-- A write that is let go on leaves the timer of its call alone. -/
theorem timer?_releaseCall? {now : Nat} {s : SessionId} {o : WriteOutcome}
    (h : releaseCall? now s o c = some c') : c'.timer? = c.timer? := by
  cases c with
  | pingLoop l =>
    obtain ⟨ps, hps, rfl⟩ := Option.map_eq_some_iff.mp h
    obtain ⟨pass, hpass, -⟩ := Option.bind_eq_some_iff.mp hps
    simp only [Call.timer?, Loop.timer, hpass, Option.isSome_some]
  | backfilling b =>
    obtain ⟨d, -, rfl⟩ := Option.map_eq_some_iff.mp h
    rfl
  | sending d =>
    obtain ⟨d', -, rfl⟩ := Option.map_eq_some_iff.mp h
    rfl
  | pinging p =>
    obtain ⟨ps, -, rfl⟩ := Option.map_eq_some_iff.mp h
    rfl
  | _ => cases h

/-- A tick that begins no pass does nothing. -/
theorem tick_of_not_beginsPass (h : r.beginsPass i (.tick i) = false) : r.tick i = r := by
  have hdue : ¬ r.isDue i = true := by
    intro hdue
    have hbegins : r.beginsPass i (.tick i) = true := beginsPass_iff.mpr ⟨hdue, .inr rfl⟩
    exact Bool.false_ne_true (h.symm.trans hbegins)
  unfold tick
  split
  · rename_i l hc
    refine if_neg fun hwaits => hdue ?_
    rw [isDue, timer?_of_call hc]
    simpa [Call.timer?, Loop.timer] using hwaits
  · rename_i l hc
    refine if_neg fun hwaits => hdue ?_
    rw [isDue, timer?_of_call hc]
    simpa [Call.timer?, Loop.timer] using hwaits
  · rfl

theorem timer?_congr (h : v.calls[i]? = r.calls[i]?) : v.timer? i = r.timer? i := by
  rw [timer?, timer?, h]

/-- The timer of a loop moves in one of the four ways, whatever happens. -/
theorem timerMove_apply (hr : Settled T r) (i : Nat) (action : Action) :
    TimerMove r i action (r.apply action) := by
  cases hb : r.beginsPass i action with
  | true => exact timerMove_begin hb
  | false =>
    rcases calls_apply hr action with ⟨cs, hcs, hmade⟩ | ⟨j, c, c', hc, hset, hleads, hwho⟩
    · refine .stays hb ?_
      by_cases hi : i < r.calls.length
      · exact timer?_congr (by rw [hcs, List.getElem?_append_left hi])
      · -- the calls that are made are no loops
        have hnone : r.timer? i = none := by
          rw [timer?, List.getElem?_eq_none (Nat.le_of_not_lt hi), Option.bind_none]
        rw [hnone, timer?, hcs, List.getElem?_append_right (Nat.le_of_not_lt hi)]
        apply Option.bind_eq_none_iff.mpr
        intro d hd
        refine Call.Serves.timer?_eq_none (hmade d (List.mem_of_getElem? hd)) ?_ ?_
        · cases action with
          | _ => exact id
        · cases action with
          | _ => exact id
    · by_cases hij : j = i
      · subst hij
        have hnow : (r.apply action).timer? j = c'.timer? := by
          rw [timer?, hset, List.getElem?_set_self (List.getElem?_eq_some_iff.mp hc).1,
            Option.bind_some]
        cases ht : c.timer? with
        | none =>
          refine .stays hb ?_
          rw [hnow, hleads.timer?_eq_none ht, timer?_of_call hc, ht]
        | some t =>
          rcases hwho with ⟨rfl, hready⟩ | ⟨-, rfl | ⟨s, o, rfl, hrelease⟩⟩
          · exact timerMove_run hc ht hb hready
          · refine .stays hb ?_
            show (r.tick j).timer? j = r.timer? j
            rw [tick_of_not_beginsPass hb]
          · refine .stays hb ?_
            rw [hnow, timer?_releaseCall? hrelease, timer?_of_call hc]
      · exact .stays hb (timer?_congr (by rw [hset, List.getElem?_set_ne hij]))

end Registry

end Multicast
