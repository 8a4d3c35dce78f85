import Multicast.Proofs.Registry.Loops

/-! When the passes of a loop are. Each loop has a period; its passes follow each other, none begins
before the first multiple of the period after the beginning of the last one, and when the clock does
not run past a loop that is due, each begins right then, or when the last one ends if that is
later. -/

namespace Multicast

/-- One pass of a loop: when it began and, unless it is under way, when it ended. -/
structure Span where
  start : Nat
  stop : Option Nat
  deriving DecidableEq

/-- The first moment of the clock, which goes by milliseconds, at or after a time. -/
def onClock (time : Nat) : Nat := (time + 999999) / 1000000 * 1000000

/-- When the next pass is due after the given ones, the latest first: at the beginning, or at the
first multiple of the period after the last pass began. -/
def dueAfter (period : Nat) : List Span → Nat
  | [] => 0
  | last :: _ => period * (last.start / period + 1)

/-- When the last pass ended; at the beginning if there was none. -/
def endOf : List Span → Nat
  | [] => 0
  | last :: _ => last.stop.getD 0

/-- Whether each pass begins at a time that is related to the passes before it. -/
def EachStart (R : List Span → Nat → Prop) : List Span → Prop
  | [] => True
  | last :: earlier => R earlier last.start ∧ EachStart R earlier

theorem EachStart.mono {R S : List Span → Nat → Prop} {ss : List Span}
    (h : EachStart R ss) (hRS : ∀ earlier start, R earlier start → S earlier start) :
    EachStart S ss := by
  induction ss with
  | nil => trivial
  | cons last earlier ih => exact ⟨hRS earlier last.start h.1, ih h.2⟩

/-- The passes, with the one under way, if there is one, having come to an end or not. -/
def settle (stop : Option Nat) : List Span → List Span
  | ⟨start, none⟩ :: earlier => ⟨start, stop⟩ :: earlier
  | ss => ss

namespace Registry

/-- Whether a pass of the loop with the number `i` is under way. -/
def inPass (r : Registry) (i : Nat) : Bool := (r.timer? i).any Timer.busy

/-- The end of a pass that is over now; a pass under way has none. -/
def stop? (r : Registry) (i : Nat) : Option Nat := if r.inPass i then none else some r.nanos

/-- The passes of the loop with the number `i` after one more action, the latest first. -/
def keepSpans (r : Registry) (i : Nat) (ss : List Span) (action : Action) : List Span :=
  let v := r.apply action
  if r.beginsPass i action then ⟨r.nanos, v.stop? i⟩ :: ss else settle (v.stop? i) ss

/-- What is known of the passes of a loop with the given period. -/
structure Timed (p i : Nat) (r : Registry) (ss : List Span) : Prop where
  timer : ∀ t, r.timer? i = some t → t.period = p ∧ t.next = dueAfter p ss
  under : r.inPass i = true ↔ ∃ start earlier, ss = ⟨start, none⟩ :: earlier
  past : ∀ s ∈ ss, s.start ≤ r.nanos ∧ ∀ e, s.stop = some e → e ≤ r.nanos
  apart : ss.Pairwise fun later earlier => ∃ e, earlier.stop = some e ∧ e ≤ later.start
  due : EachStart (fun earlier start => dueAfter p earlier ≤ start) ss

/-- What is known besides when the clock does not run past the loop. -/
structure Punctual (p i : Nat) (r : Registry) (ss : List Span) : Prop where
  starts : EachStart (fun earlier start => start = max (onClock (dueAfter p earlier))
    (endOf earlier)) ss
  waits : ∀ t, r.timer? i = some t → t.busy = false → r.nanos ≤ max (onClock t.next) (endOf ss)

variable {T : Terms} {r v : Registry} {i p : Nat} {t : Timer} {action : Action}
  {ss : List Span} {config : Config} {hooks : Hooks}

/-! ### Multiples of the period -/

theorem onClock_le_nanos_iff (r : Registry) (time : Nat) :
    onClock time ≤ r.nanos ↔ time ≤ r.nanos := by
  unfold onClock nanos
  omega

/-- After a pass that begins at or after a multiple of the period, the next one is due at the first
multiple later than now. -/
theorem after_eq {now : Nat} (hnext : t.period ∣ t.next) (hdue : t.next ≤ now) :
    t.after now = t.period * (now / t.period + 1) := by
  obtain ⟨k, hk⟩ := hnext
  have hmod : (now - t.next) % t.period = now % t.period := by
    rw [hk, Nat.sub_mul_mod (hk ▸ hdue)]
  have hsplit : t.period * (now / t.period) + now % t.period = now := Nat.div_add_mod now t.period
  calc t.after now = now + t.period - now % t.period := by rw [Timer.after, hmod]
    _ = t.period * (now / t.period) + t.period := by omega
    _ = t.period * (now / t.period + 1) := by rw [Nat.mul_add, Nat.mul_one]

theorem dvd_dueAfter (p : Nat) (ss : List Span) : p ∣ dueAfter p ss := by
  cases ss with
  | nil => exact Nat.dvd_zero p
  | cons last earlier => exact Nat.dvd_mul_right p _

/-- What is known of the starts does not depend on whether the last pass has ended. -/
theorem eachStart_settle {R : List Span → Nat → Prop} (stop : Option Nat) :
    EachStart R (settle stop ss) ↔ EachStart R ss := by
  unfold settle
  split
  · exact Iff.rfl
  · exact Iff.rfl

theorem dueAfter_settle (p : Nat) (stop : Option Nat) (ss : List Span) :
    dueAfter p (settle stop ss) = dueAfter p ss := by
  unfold settle
  split
  · rfl
  · rfl

theorem inPass_of_timer? (h : r.timer? i = some t) : r.inPass i = t.busy := by
  rw [inPass, h, Option.any_some]

theorem stop?_eq_some {e : Nat} (h : r.stop? i = some e) : r.inPass i = false ∧ e = r.nanos := by
  unfold stop? at h
  split at h
  · cases h
  · rename_i hpass
    exact ⟨Bool.eq_false_iff.mpr hpass, (Option.some.inj h).symm⟩

/-- A pass is under way just if the last one has no end. -/
theorem under_cons {start : Nat} : r.inPass i = true ↔
    ∃ start' earlier, (⟨start, r.stop? i⟩ :: ss : List Span) = ⟨start', none⟩ :: earlier := by
  unfold stop?
  split
  · rename_i hpass
    exact iff_of_true hpass ⟨start, ss, rfl⟩
  · rename_i hpass
    exact iff_of_false hpass nofun

namespace Timed

/-- While the loop waits, all its passes have ended. -/
theorem ended (h : Timed p i r ss) (hidle : r.inPass i = false) :
    ∀ s ∈ ss, ∃ e, s.stop = some e ∧ e ≤ r.nanos := by
  intro s hs
  cases hstop : s.stop with
  | some e => exact ⟨e, rfl, (h.past s hs).2 e hstop⟩
  | none =>
    cases ss with
    | nil => cases hs
    | cons last earlier =>
      rcases List.mem_cons.mp hs with rfl | hs
      · -- the last pass would be under way
        have hunder : r.inPass i = true := h.under.mpr ⟨s.start, earlier, by rw [← hstop]⟩
        exact absurd (hidle.symm.trans hunder) Bool.false_ne_true
      · obtain ⟨e, he, -⟩ := (List.pairwise_cons.mp h.apart).1 s hs
        exact absurd (hstop.symm.trans he) nofun

theorem endOf_le (h : Timed p i r ss) (hidle : r.inPass i = false) : endOf ss ≤ r.nanos := by
  cases ss with
  | nil => exact Nat.zero_le _
  | cons last earlier =>
    obtain ⟨e, he, hle⟩ := h.ended hidle last List.mem_cons_self
    rw [endOf, he]
    exact hle

theorem settle_of_idle (h : Timed p i r ss) (hidle : r.inPass i = false) {stop : Option Nat} :
    settle stop ss = ss := by
  unfold settle
  split
  · rename_i start earlier
    exact absurd (h.under.mpr ⟨start, earlier, rfl⟩) (Bool.eq_false_iff.mp hidle)
  · rfl

/-- A pass that begins comes after all the others. -/
theorem begins (h : Timed p i r ss) (hwas : r.timer? i = some t) (hidle : t.busy = false)
    (hdue : t.next ≤ r.nanos) {busy : Bool} (hle : r.nanos ≤ v.nanos)
    (hnow : v.timer? i = some ⟨t.period, t.after r.nanos, busy⟩) :
    Timed p i v (⟨r.nanos, v.stop? i⟩ :: ss) := by
  obtain ⟨hperiod, hnext⟩ := h.timer t hwas
  have hended := h.ended ((inPass_of_timer? hwas).trans hidle)
  have hdvd : t.period ∣ t.next := by
    rw [hperiod, hnext]
    exact dvd_dueAfter p ss
  have hfirst : dueAfter p ss ≤ r.nanos := hnext ▸ hdue
  refine ⟨?_, under_cons, ?_, List.pairwise_cons.mpr ⟨hended, h.apart⟩, hfirst, h.due⟩
  · intro u hu
    obtain rfl := Option.some.inj (hnow.symm.trans hu)
    refine ⟨hperiod, ?_⟩
    rw [dueAfter, ← hperiod]
    exact after_eq hdvd hdue
  · intro s hs
    rcases List.mem_cons.mp hs with rfl | hs
    · exact ⟨hle, fun e he => (stop?_eq_some he).2.le⟩
    · obtain ⟨hstart, hstop⟩ := h.past s hs
      exact ⟨hstart.trans hle, fun e he => (hstop e he).trans hle⟩

/-- The last pass goes on or ends, or nothing happens to it. -/
theorem settles (h : Timed p i r ss) (hle : r.nanos ≤ v.nanos)
    (htimer : ∀ t, v.timer? i = some t → ∃ busy, r.timer? i = some ⟨t.period, t.next, busy⟩)
    (hpass : v.inPass i = true → r.inPass i = true) :
    Timed p i v (settle (v.stop? i) ss) := by
  have htimer' (t : Timer) (ht : v.timer? i = some t) :
      t.period = p ∧ t.next = dueAfter p (settle (v.stop? i) ss) := by
    obtain ⟨busy, hwas⟩ := htimer t ht
    rw [dueAfter_settle]
    exact h.timer ⟨t.period, t.next, busy⟩ hwas
  have hdue := (eachStart_settle (v.stop? i)).mpr h.due
  cases hbusy : r.inPass i with
  | true =>
    obtain ⟨start, earlier, rfl⟩ := h.under.mp hbusy
    have hapart := List.pairwise_cons.mp h.apart
    refine ⟨htimer', under_cons, ?_, List.pairwise_cons.mpr hapart, hdue⟩
    intro s hs
    rcases List.mem_cons.mp hs with rfl | hs
    · refine ⟨(h.past _ List.mem_cons_self).1.trans hle, fun e he => (stop?_eq_some he).2.le⟩
    · obtain ⟨hstart, hstop⟩ := h.past s (List.mem_cons_of_mem _ hs)
      exact ⟨hstart.trans hle, fun e he => (hstop e he).trans hle⟩
  | false =>
    have hidle : v.inPass i = false := Bool.eq_false_iff.mpr fun hv =>
      Bool.false_ne_true (hbusy.symm.trans (hpass hv))
    rw [h.settle_of_idle hbusy] at htimer' hdue ⊢
    refine ⟨htimer', ?_, ?_, h.apart, hdue⟩
    · rw [hidle, ← hbusy]
      exact h.under
    · intro s hs
      obtain ⟨hstart, hstop⟩ := h.past s hs
      exact ⟨hstart.trans hle, fun e he => (hstop e he).trans hle⟩

end Timed

/-! ### Whole runs -/

theorem nanos_le_apply (hr : Settled (.any config hooks True) r) (action : Action) :
    r.nanos ≤ (r.apply action).nanos :=
  Nat.mul_le_mul_right 1000000 (reaches_apply hr action.keeps_any).shifts.now_le

/-- Whatever happens, what is known of the passes of a loop is kept. -/
theorem Timed.apply (hr : Settled (.any config hooks True) r) (h : Timed p i r ss)
    (action : Action) : Timed p i (r.apply action) (r.keepSpans i ss action) := by
  have hle := nanos_le_apply hr action
  unfold keepSpans
  dsimp only
  cases timerMove_apply hr i action with
  | begins begin was idle due busy now =>
    rw [if_pos begin]
    exact h.begins was idle due hle now
  | @goesOn t begin was busy under now =>
    rw [if_neg (Bool.eq_false_iff.mp begin)]
    refine h.settles hle ?_ fun _ => (inPass_of_timer? was).trans under
    intro u hu
    obtain rfl := Option.some.inj (now.symm.trans hu)
    exact ⟨t.busy, was⟩
  | stays begin now =>
    rw [if_neg (Bool.eq_false_iff.mp begin)]
    refine h.settles hle ?_ fun hpass => ?_
    · exact fun t ht => ⟨t.busy, now.symm.trans ht⟩
    · rwa [inPass, now] at hpass
  | ends begin was now =>
    rw [if_neg (Bool.eq_false_iff.mp begin)]
    refine h.settles hle ?_ ?_
    · exact fun t ht => nomatch now.symm.trans ht
    · intro hpass
      rw [inPass, now] at hpass
      cases hpass

/-- A pass begins when it is due, or when the last one ends, if the clock does not run past it. -/
theorem Punctual.apply (hr : Settled (.any config hooks True) r) (ht : Timed p i r ss)
    (h : Punctual p i r ss) {action : Action} (hprompt : ∀ t, r.timer? i = some t →
      t.busy = false → (r.apply action).nanos ≤ max r.nanos (onClock t.next)) :
    Punctual p i (r.apply action) (r.keepSpans i ss action) := by
  have hidle {v : Registry} {t : Timer} (ht : v.timer? i = some t) (hbusy : t.busy = false) :
      v.stop? i = some v.nanos := by
    rw [stop?, inPass_of_timer? ht, hbusy]
    rfl
  unfold keepSpans
  dsimp only
  cases timerMove_apply hr i action with
  | @begins t begin was idle due busy now =>
    rw [if_pos begin]
    have hend : endOf ss ≤ r.nanos := ht.endOf_le ((inPass_of_timer? was).trans idle)
    have hclock : onClock t.next ≤ r.nanos := (onClock_le_nanos_iff r t.next).mpr due
    have hstart : r.nanos = max (onClock (dueAfter p ss)) (endOf ss) := by
      rw [← (ht.timer t was).2]
      exact Nat.le_antisymm (h.waits t was idle) (Nat.max_le.mpr ⟨hclock, hend⟩)
    refine ⟨⟨hstart, h.starts⟩, fun u hu hbusy => ?_⟩
    rw [endOf, hidle hu hbusy]
    exact Nat.le_max_right _ _
  | @goesOn t begin was busy under now =>
    rw [if_neg (Bool.eq_false_iff.mp begin)]
    refine ⟨(eachStart_settle _).mpr h.starts, fun u hu hbusy => ?_⟩
    -- the pass has just ended
    obtain ⟨start, earlier, rfl⟩ := ht.under.mp ((inPass_of_timer? was).trans under)
    rw [hidle hu hbusy]
    exact Nat.le_max_right _ _
  | stays begin now =>
    rw [if_neg (Bool.eq_false_iff.mp begin)]
    refine ⟨(eachStart_settle _).mpr h.starts, fun u hu hbusy => ?_⟩
    have hwas : r.timer? i = some u := now.symm.trans hu
    rw [ht.settle_of_idle ((inPass_of_timer? hwas).trans hbusy)]
    calc (r.apply action).nanos ≤ max r.nanos (onClock u.next) := hprompt u hwas hbusy
      _ ≤ max (onClock u.next) (endOf ss) :=
        Nat.max_le.mpr ⟨h.waits u hwas hbusy, Nat.le_max_left _ _⟩
  | ends begin was now =>
    rw [if_neg (Bool.eq_false_iff.mp begin)]
    exact ⟨(eachStart_settle _).mpr h.starts, fun t ht => nomatch now.symm.trans ht⟩

end Registry

end Multicast
