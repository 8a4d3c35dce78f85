import Multicast.Proofs.Demo.Admission

/-! What the tasks of the demonstration do that do not wait for the clock. Each step of theirs
leaves less to do, and when there is nothing left, all subscribers have their seats and have
received what was announced. -/

namespace Multicast

namespace Demo

variable {settings : Settings} {Q : Nat → Portion → Prop} {d e : Demo} {i j k n : Nat}
  {x : Session} {c c' : Call} {t : DemoTask} {tasks : List DemoTask}

/-- Whether the demonstration has not begun to come to its end. -/
def beforeShutdown (d : Demo) : Bool :=
  match d.main with
  | .joining | .stopping _ | .draining _ | .ended => false
  | .subscribing .. | .backfilling .. | .serving | .failed _ => true

/-- Whether a task has something to do for the subscribers. The loops of the registry and the
producer go by the clock, and the main task serves until it is told to end. -/
def hasWork (d : Demo) : DemoTask → Bool
  | .main => d.main != .serving && d.mainReady
  | .registry (.worker i) => d.registry.workerReady i
  | .registry (.call k) => d.registry.ready (.call k) &&
      !((d.registry.calls[k]?).map Call.isLoop).getD false
  | .producer => false
  | .consumer i => d.consumerReady i

/-- Whether each of the tasks has work when it goes on, one after the other. -/
def haveWork (d : Demo) : List DemoTask → Bool
  | [] => true
  | t :: rest => d.hasWork t && haveWork (d.apply (.run t)) rest

/-- Whether the subscriber has its consumer, and neither its worker nor its consumer has anything to
do. -/
def isDrained (d : Demo) (i : Nat) : Bool :=
  decide (i < d.consumers.length) && !d.registry.workerReady i && !d.consumerReady i

theorem isDrained_iff : d.isDrained i = true ↔
    i < d.consumers.length ∧ d.registry.workerReady i = false ∧ d.consumerReady i = false := by
  simp [isDrained, and_assoc]

/-! ### The loop that sweeps -/

theorem Guest.not_isLoop {point : MainPoint} (h : Guest i j x point c) : c.isLoop = false := by
  cases h <;> rfl

theorem ne_of_isLoop {calls : List Call} (hc : calls[k]? = some c) (hloop : c.isLoop = true)
    (hc' : calls[j]? = some c') (hother : c'.isLoop = false) : k ≠ j := by
  rintro rfl
  obtain rfl := Option.some.inj (hc.symm.trans hc')
  exact Bool.false_ne_true (hother.symm.trans hloop)

theorem isIdle_of_set {calls : List Call} {l : Nat} (hidle : c'.IsIdle)
    (hother : calls[l]? = some c → c.IsIdle) (hc : (calls.set k c')[l]? = some c) : c.IsIdle := by
  by_cases hlk : k = l
  · subst hlk
    have hlt := (List.getElem?_eq_some_iff.mp hc).1
    rw [List.length_set] at hlt
    rw [List.getElem?_set_self hlt] at hc
    obtain rfl := Option.some.inj hc
    exact hidle
  · rw [List.getElem?_set_ne hlk] at hc
    exact hother hc

/-- A call other than the one that lets a subscriber in goes on. -/
theorem Arriving.setOther (h : Arriving n i j c d) (hkj : k ≠ j) (hidle : c'.IsIdle)
    (hcalls : e.registry.calls = d.registry.calls.set k c') (hsettings : e.settings = d.settings)
    (hproducer : e.producer = d.producer) (hconsumers : e.consumers = d.consumers) :
    Arriving n i j c e := by
  refine h.congr hsettings hproducer (congrArg List.length hconsumers) ?_ fun l a hl ha => ?_
  · rw [hcalls, List.getElem?_set_ne hkj]
    exact h.call
  · rw [hcalls] at ha
    exact isIdle_of_set hidle (h.others l a hl) ha

/-- Nobody is cancelled, so that a pass of the loop is over at once. -/
theorem sweepLoopStep_of_calm {config : Config} {r : Registry} (h : Calm config r)
    (l : Loop SweepPass) (hl : l.pass = none) : r.sweepLoopStep k l =
      r.setCall k (.sweepLoop { l with next := l.after r.nanos, pass := none }) := by
  have hnobody : r.members.filter r.isCancelled = [] :=
    List.filter_eq_nil_iff.mpr fun s _ => by simp [isCancelled_of_no_tokens h.tokens]
  simp only [Registry.sweepLoopStep, hl, h.running, Bool.false_eq_true, if_false,
    Registry.sweepTick, Registry.beginSweep, hnobody, Registry.nextSweep, gt_iff_lt,
    Nat.lt_irrefl, Registry.sweepLoopProgress]

/-- A loop goes on; nothing changes for the subscribers. -/
theorem Underway.loopStep (h : Underway settings n Q d) (hc : d.registry.calls[k]? = some c)
    (hidle : c.IsIdle) (hready : d.registry.ready (.call k) = true) :
    Underway settings n Q (d.step (.registry (.call k))) := by
  cases c with
  | sweepLoop l =>
    obtain ⟨c', hc'⟩ : ∃ c' : Call, c' = .sweepLoop
        { l with next := l.after d.registry.nanos, pass := none } := ⟨_, rfl⟩
    have hstays : c'.IsIdle := by
      rw [hc']
      rfl
    have hstep : d.registry.step (.call k) = d.registry.setCall k c' := by
      simp only [Registry.step, hc, Registry.callStep, sweepLoopStep_of_calm h.calm l hidle, hc']
    have hcalm : Calm settings.stream.config (d.registry.setCall k c') :=
      h.calm.apply _ ((apply_run hready).trans hstep) rfl rfl rfl
    show Underway settings n Q (d.withRegistry (d.registry.step (.call k)))
    rw [hstep]
    refine ⟨h.toManned.of_spares (.of_sessions rfl fun _ => rfl) hcalm rfl rfl, h.sequence, ?_⟩
    cases h.phase with
    | asking i j begun hmain harriving hdue hsessions =>
      have hkj := ne_of_isLoop hc rfl harriving.call rfl
      exact .asking i j begun hmain (harriving.setOther hkj hstays rfl rfl rfl rfl) hdue hsessions
    | guest i j point a x hmain harriving hx hsessions hguest =>
      have hkj := ne_of_isLoop hc rfl harriving.call hguest.not_isLoop
      exact .guest i j point a x hmain (harriving.setOther hkj hstays rfl rfl rfl rfl) hx hsessions
        hguest
    | serving next hmain hproducer hfull hsessions hall =>
      exact .serving next hmain hproducer hfull hsessions fun l a ha =>
        isIdle_of_set hstays (hall l a) ha
  | returned o =>
    simp only [Registry.ready, hc, Registry.callReady, Bool.false_eq_true] at hready
  | _ => exact hidle.elim

/-! ### The other tasks -/

/-- The main task goes on while the subscribers are let in. -/
theorem Underway.mainStep (h : Underway settings n Q d)
    (hlasting : Lasting settings.stream.stalePolicy Q) (hready : d.mainReady = true)
    (hbusy : d.main ≠ .serving) : GoesOn settings n Q d d.mainStep := by
  cases h.phase with
  | asking i j begun hmain harriving =>
    simp only [Demo.mainReady, hmain, Registry.isOver, harriving.call, Bool.false_eq_true] at hready
  | guest i j point c x hmain harriving hx hsessions hguest =>
    cases hguest with
    | enrolled hnew => exact h.sendHistory hmain harriving hx hsessions hnew
    | waiting | writing =>
      simp only [Demo.mainReady, hmain, Registry.isOver, harriving.call, Bool.false_eq_true]
        at hready
    | sent hsent => exact h.takeSeat hlasting hmain harriving hx hsessions hsent
  | serving next hmain => exact absurd hmain hbusy

/-- The call goes on that lets a subscriber in. -/
theorem Underway.callStep (h : Underway settings n Q d) (hc : d.registry.calls[k]? = some c)
    (hloop : c.isLoop = false) (hready : d.registry.ready (.call k) = true) :
    GoesOn settings n Q d (d.step (.registry (.call k))) := by
  -- a call that is idle and no loop has returned
  have hbusy : ¬ c.IsIdle := by
    intro hidle
    cases c with
    | returned o => simp only [Registry.ready, hc, Registry.callReady, Bool.false_eq_true] at hready
    | sweepLoop => cases hloop
    | _ => exact hidle.elim
  cases h.phase with
  | asking i j begun hmain harriving hdue hsessions =>
    obtain rfl : k = j := by
      by_contra hkj
      exact hbusy (harriving.others k c hkj hc)
    exact h.enrol hmain harriving hdue hsessions
  | guest i j point a x hmain harriving hx hsessions hguest =>
    obtain rfl : k = j := by
      by_contra hkj
      exact hbusy (harriving.others k c hkj hc)
    cases hguest with
    | enrolled | sent =>
      obtain rfl := Option.some.inj (harriving.call.symm.trans hc)
      exact absurd trivial hbusy
    | waiting hwaits => exact (h.beginHistory hmain harriving hx hsessions hwaits).2
    | writing run hpoint hkeep hframe hwrites =>
      exact (h.finishHistory hmain harriving hx hsessions hpoint hkeep hframe hwrites).2
  | serving next hmain hproducer hfull hsessions hall => exact absurd (hall k c hc) hbusy

theorem ready_of_hasWork (h : d.hasWork t = true) : d.ready t = true := by
  cases t with
  | main => exact (Bool.and_eq_true_iff.mp h).2
  | registry t =>
    cases t with
    | worker i => exact h
    | call k => exact (Bool.and_eq_true_iff.mp h).1
  | producer => cases h
  | consumer i => exact h

/-- A task that has work goes on, and leaves less of it. -/
theorem Underway.work (h : Underway settings n Q d)
    (hlasting : Lasting settings.stream.stalePolicy Q) (hwork : d.hasWork t = true) :
    GoesOn settings n Q d (d.apply (.run t)) := by
  have happly : d.apply (.run t) = d.step t := if_pos (ready_of_hasWork hwork)
  rw [happly]
  cases t with
  | main =>
    obtain ⟨hbusy, hready⟩ := Bool.and_eq_true_iff.mp hwork
    exact h.mainStep hlasting hready (bne_iff_ne.mp hbusy)
  | registry t =>
    cases t with
    | worker i => exact h.workerStep hlasting hwork
    | call k =>
      obtain ⟨hready, hloop⟩ := Bool.and_eq_true_iff.mp hwork
      cases hc : d.registry.calls[k]? with
      | none => simp only [Registry.ready, hc, Bool.false_eq_true] at hready
      | some c =>
        rw [hc] at hloop
        exact h.callStep hc (by simpa using hloop) hready
  | producer => cases hwork
  | consumer i => exact h.consumerStep hwork

/-- There is an end to the work. -/
theorem Underway.works (h : Underway settings n Q d)
    (hlasting : Lasting settings.stream.stalePolicy Q) (hwork : d.haveWork tasks = true) :
    Underway settings n Q (d.run (tasks.map .run)) ∧
      (d.run (tasks.map .run)).stepsLeft + tasks.length ≤ d.stepsLeft := by
  induction tasks generalizing d with
  | nil => exact ⟨h, Nat.le_refl _⟩
  | cons t rest ih =>
    obtain ⟨hfirst, hrest⟩ := Bool.and_eq_true_iff.mp hwork
    have hnext := h.work hlasting hfirst
    obtain ⟨hafter, hleft⟩ := ih hnext.toUnderway hrest
    refine ⟨hafter, ?_⟩
    have hless := hnext.less
    rw [List.length_cons, ← Nat.add_assoc]
    exact Nat.succ_le_of_lt (hleft.trans_lt hless)

/-- When no task has work, all subscribers are drained. -/
theorem Underway.drained_of_rest (h : Underway settings n Q d) (hrest : ∀ t, d.hasWork t = false)
    (hi : i < settings.demo.subscribers) : d.isDrained i = true := by
  have hnot {p : Prop} {t : DemoTask} (hwork : d.hasWork t = true) : p :=
    absurd (hrest t) (by simp [hwork])
  refine isDrained_iff.mpr ⟨?_, hrest (.registry (.worker i)), hrest (.consumer i)⟩
  rw [← h.same] at hi
  cases h.phase with
  | serving next hmain hproducer hfull => exact hfull ▸ hi
  | asking i j begun hmain harriving hdue hsessions =>
    refine hnot (t := .registry (.call j)) ?_
    simp only [hasWork, Registry.ready, harriving.call, Registry.callReady, Option.map_some,
      Option.getD_some, Call.isLoop, Bool.not_false, Bool.and_true]
    exact decide_eq_true hdue
  | guest i j point c x hmain harriving hx hsessions hguest =>
    cases hguest with
    | enrolled | sent =>
      refine hnot (t := .main) ?_
      simp only [hasWork, hmain, Demo.mainReady, Registry.isOver, harriving.call]
      rfl
    | waiting hwaits =>
      refine hnot (t := .registry (.call j)) ?_
      simp only [hasWork, (h.beginHistory hmain harriving hx hsessions hwaits).1, harriving.call]
      rfl
    | writing run hpoint hkeep hframe hwrites =>
      refine hnot (t := .registry (.call j)) ?_
      simp only [hasWork,
        (h.finishHistory hmain harriving hx hsessions hpoint hkeep hframe hwrites).1,
        harriving.call]
      rfl

end Demo

end Multicast
