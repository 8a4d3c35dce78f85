import Multicast.Proofs.Channel.Refusal
import Multicast.Proofs.Registry.Enrolment

/-! Nothing is lost on the way through a channel. What the receiver has taken out of it, followed by
what is still in it, is what was written to the subscriber, in order; a write to a full channel
waits; and once the receiver is gone, a write fails and the subscriber is removed. -/

namespace Multicast

/-- Whether an action drops the receiver of a subscriber. -/
def Action.dropsReceiver (s : SessionId) : Action → Bool
  | .dropReceiver s' => s' == s
  | _ => false

namespace Registry

variable {config : Config} {hooks : Hooks} {r v : Registry} {s : SessionId} {x : Session}
  {p : Party} {i n : Nat} {d : Delivery} {k : Channel (Batch Nat)} {t : Pipe} {dropped : Bool}
  {taken : List (Batch Nat)} {action : Action} {request : Subscription} {hook : HookRun}

/-- What the receiver of a subscriber takes out of the channel in an action. -/
def takenBy (r : Registry) (s : SessionId) : Action → List (Batch Nat)
  | .receive s' => if s' = s then ((r.receive? s).map (·.1)).toList else []
  | _ => []

/-- What the receiver of a subscriber takes out of the channel in the course of the actions. -/
def received (s : SessionId) : Registry → List Action → List (Batch Nat)
  | _, [] => []
  | r, action :: rest => r.takenBy s action ++ (r.apply action).received s rest

theorem received_moveOf : (r.moveOf s action).received = r.takenBy s action := by
  cases action with
  | receive s' =>
    by_cases hs : s' = s
    · simp only [moveOf, takenBy, hs, if_true]
      cases r.receive? s <;> rfl
    · simp [moveOf, takenBy, hs, Pipe.Move.received]
  | dropReceiver s' => by_cases hs : s' = s <;> simp [moveOf, takenBy, hs, Pipe.Move.received]
  | _ => rfl

theorem drops_moveOf : (r.moveOf s action).drops = action.dropsReceiver s := by
  cases action with
  | receive s' =>
    by_cases hs : s' = s
    · simp only [moveOf, hs, if_true]
      cases r.receive? s <;> rfl
    · simp [moveOf, hs, Pipe.Move.drops, Action.dropsReceiver]
  | dropReceiver s' =>
    by_cases hs : s' = s <;> simp [moveOf, hs, Pipe.Move.drops, Action.dropsReceiver]
  | _ => rfl

/-! ### In the course of a run -/

theorem apply_eq_run {actions : List Action} (hr : r = (new config hooks).run actions)
    (action : Action) : r.apply action = (new config hooks).run (actions ++ [action]) := by
  rw [run_append, ← hr]
  rfl

/-- One party at most writes to a subscriber at any moment. -/
theorem oneWrites_run (actions : List Action) (s : SessionId) :
    ((new config hooks).run actions).OneWrites s := by
  intro p q d e hd he
  obtain ⟨hp, -⟩ := exists_of_write? hd
  obtain ⟨hq, -⟩ := exists_of_write? he
  cases hx : ((new config hooks).run actions).session? s with
  | none =>
    have hsettled := settled_any_run config hooks actions
    exact nomatch hp.symm.trans ((hsettled.sound.strangers s hx).1 p)
  | some x =>
    have hgated := gated_run actions hx
    exact hgated.eq_of_holds hp (hgated.holds q e hq)

/-- What batches are processed into by the callbacks of a registry. -/
def ProcessedBy (hooks : Hooks) (frame : Batch Nat) : Prop := ∃ z b, frame = hooks.process z b

/-- A channel keeps faith whatever happens. -/
theorem exists_faithful_apply {actions : List Action} (hr : r = (new config hooks).run actions)
    (h : r.pipe? s = some t) (ht : t.Faithful (ProcessedBy hooks) n taken dropped)
    (action : Action) : ∃ t', (r.apply action).pipe? s = some t' ∧
      t'.Faithful (ProcessedBy hooks) n (taken ++ r.takenBy s action)
        (dropped || action.dropsReceiver s) := by
  have hsettled : Settled (.any config hooks True) r := hr ▸ settled_any_run config hooks actions
  obtain ⟨t', ht', hstep⟩ :=
    step_of_apply hsettled h ht.tight action (apply_eq_run hr action ▸ oneWrites_run _ s)
  refine ⟨t', ht', ?_⟩
  rw [← received_moveOf (r := r), ← drops_moveOf (r := r)]
  rcases hstep with ⟨rfl, hmove⟩ | hstep
  · rw [hmove, Pipe.Move.received, List.append_nil, Pipe.Move.drops, Bool.or_false]
    exact ht
  · have hprocess : r.Processed = ProcessedBy hooks := by
      funext frame
      rw [Processed, hsettled.sound.process]
      rfl
    rw [Steps, hprocess] at hstep
    exact ht.step hstep

theorem exists_faithful_run {actions : List Action} (hr : r = (new config hooks).run actions)
    (h : r.pipe? s = some t) (ht : t.Faithful (ProcessedBy hooks) n taken dropped)
    (more : List Action) : ∃ t', (r.run more).pipe? s = some t' ∧
      t'.Faithful (ProcessedBy hooks) n (taken ++ r.received s more)
        (dropped || more.any (·.dropsReceiver s)) := by
  induction more generalizing r t taken dropped actions with
  | nil =>
    refine ⟨t, h, ?_⟩
    rw [received, List.append_nil, List.any_nil, Bool.or_false]
    exact ht
  | cons action rest ih =>
    obtain ⟨t', ht', hnext⟩ := exists_faithful_apply hr h ht action
    obtain ⟨t'', ht'', hlast⟩ := ih (apply_eq_run hr action) ht' hnext
    refine ⟨t'', ht'', ?_⟩
    rw [received, List.any_cons, ← List.append_assoc, ← Bool.or_assoc]
    exact hlast

/-! ### The beginning -/

/-- A subscriber to whom no write has failed has no failure. -/
theorem failures_of_not_gone (actions : List Action)
    (hs : ((new config hooks).run actions).isGone s = false) :
    ((new config hooks).run actions).failures s = [] := by
  have htold := (passage_new config hooks actions).told [] (told_new config hooks)
  refine List.filterMap_eq_nil_iff.mpr fun e he => ?_
  cases e with
  | writeFailed who kind error =>
    refine if_neg ?_
    rintro rfl
    have hgone := htold.failed who.id (List.mem_filterMap.mpr ⟨_, he, rfl⟩)
    rw [hs] at hgone
    cases hgone
  | _ => rfl

theorem pipe?_enrol (haway : ∀ p, r.posts r.sessions.length p = .away)
    (hlog : r.log r.sessions.length = []) (hfailures : r.failures r.sessions.length = [])
    (hsink : request.sink = .channel k) (hi : i < r.calls.length)
    {a : Except RegistryError Answer} :
    ((r.enrol request).1.setCall i (.returned a)).pipe? r.sessions.length =
      some ⟨k, fun _ => none, [], []⟩ := by
  have hx : ((r.enrol request).1.setCall i (.returned a)).session? r.sessions.length =
      some (.ofSubscription request r.config.queueCapacity) :=
    (session?_enrol r request _).trans (if_pos rfl)
  have hwritten : (r.enrol request).1.written r.sessions.length = [] := by
    have hsame : (r.enrol request).1.written r.sessions.length = r.written r.sessions.length :=
      written_note_of_unmarked rfl
    rw [hsame, written, hlog]
    rfl
  have hnone : (r.enrol request).1.failures r.sessions.length = [] :=
    (failures_note rfl).trans hfailures
  have houtlet : ((r.enrol request).1.setCall i (.returned a)).outlet r.sessions.length =
      ⟨some (.channel k), none, [], []⟩ := by
    rw [outlet_of_session? hx]
    show Outlet.mk (some request.sink) none ((r.enrol request).1.written _)
      ((r.enrol request).1.failures _) = _
    rw [hwritten, hnone, hsink]
  have hwrites : ((r.enrol request).1.setCall i (.returned a)).writes r.sessions.length =
      fun _ => none := by
    funext p
    cases p with
    | worker => rw [writes_worker, houtlet]
    | call j =>
      by_cases hj : j = i
      · subst hj
        exact writes_call (c := .returned a) (List.getElem?_set_self hi)
      · rw [writes_call_congr (r := r) (List.getElem?_set_ne (Ne.symm hj)), writes, haway]
        rfl
  rw [pipe?, houtlet, hwrites]
  rfl

/-- When a subscriber with a channel has just been registered, its channel is as it was made. -/
theorem pipe?_registered (before : List Action)
    (hcall : ((new config hooks).run before).calls[i]? = some (.subscribing request hook))
    (hsink : request.sink = .channel k)
    (hs : ((new config hooks).run (before ++ [.run (.call i)])).calls[i]? =
      some (.returned (.ok (.subscribed s)))) :
    ((new config hooks).run (before ++ [.run (.call i)])).pipe? s =
      some ⟨k, fun _ => none, [], []⟩ := by
  have hu := settled_any_run config hooks before
  have hfailures : ((new config hooks).run before).isGone s = false →
      ((new config hooks).run before).failures s = [] := failures_of_not_gone before
  have hrun : (new config hooks).run (before ++ [.run (.call i)]) =
      ((new config hooks).run before).apply (.run (.call i)) := run_append _ before _
  rw [hrun] at hs ⊢
  generalize (new config hooks).run before = u at *
  cases hready : hook.ready u.now with
  | false =>
    rw [apply_call_of_waiting hcall hready, hcall] at hs
    cases hs
  | true =>
    rw [apply_call hcall hready] at hs ⊢
    rw [callStep] at hs ⊢
    have hi : i < u.calls.length := (List.getElem?_eq_some_iff.mp hcall).1
    rcases subscribeStep_cases hcall hready with ⟨c, hout, heq, -⟩ | ⟨-, heq⟩
    · have hget : (u.setCall i c).calls[i]? = some c := List.getElem?_set_self hi
      rw [heq, hget] at hs
      obtain rfl := Option.some.inj hs
      exact hout.elim
    · have hget : ((u.enrol request).1.setCall i
          (.returned (.ok (.subscribed u.sessions.length)))).calls[i]? =
          some (.returned (.ok (.subscribed u.sessions.length))) := List.getElem?_set_self hi
      rw [heq, hget] at hs
      obtain rfl : u.sessions.length = s := by
        simpa using hs
      have hnone : u.session? u.sessions.length = none := session?_length u
      obtain ⟨haway, hlog⟩ := hu.sound.strangers _ hnone
      rw [heq]
      exact pipe?_enrol haway hlog (hfailures (by rw [isGone, hnone]; rfl)) hsink hi

/-! ### Full channels and closed ones -/

/-- The frames that wait in the channel of a subscriber. -/
def buffer? (r : Registry) (s : SessionId) : Option (List (Batch Nat)) :=
  (r.pipe? s).map (·.channel.buffer)

/-- Whatever happens, except that the receiver takes a frame or is dropped, nothing in the channel
is lost or changes its place and nothing is written; the write is under way still, or is given up
with the round of pings to which it belongs. -/
def Waits (v : Registry) (s : SessionId) (p : Party) (d : Delivery) : Prop :=
  ∀ action, v.moveOf s action = .deliver →
    (v.apply action).buffer? s = v.buffer? s ∧ (v.apply action).written s = v.written s ∧
      (v.apply action).failures s = v.failures s ∧
      ((v.apply action).writes s p = some d ∨ ∃ j, p = .call j ∧ v.LosesRound (v.apply action) j)

/-- Between `v` and `w` a write has failed because the channel is closed, and the subscriber is
removed. -/
def FailsClosed (v w : Registry) (s : SessionId) : Prop :=
  w.failures s = .closed :: v.failures s ∧ w.isGone s = true

/-- Whether a party goes on with its write to a subscriber when its task runs. -/
def GoesOnWith (r : Registry) (s : SessionId) : Party → Prop
  | .worker => True
  | .call i => r.GoesFirst s i

/-- A write is refused: whatever happens, it is under way still, or has failed, or is given up with
the round of pings to which it belongs; and it fails when its party goes on with it. -/
structure IsRefused (v : Registry) (s : SessionId) (p : Party) (d : Delivery) : Prop where
  ends : ∀ action, (v.apply action).writes s p = some d ∨ v.FailsClosed (v.apply action) s ∨
    ∃ j, p = .call j ∧ v.LosesRound (v.apply action) j
  fails : v.GoesOnWith s p → v.FailsClosed (v.apply (.run (p.task s))) s

theorem failsClosed_of_failures {actions : List Action} (hv : v = (new config hooks).run actions)
    {w : Registry} (hw : w = v.apply action) (h : w.failures s = .closed :: v.failures s) :
    v.FailsClosed w s := by
  refine ⟨h, ?_⟩
  by_contra hpresent
  have hrun : w = (new config hooks).run (actions ++ [action]) := hw.trans (apply_eq_run hv action)
  rw [hrun] at h hpresent
  rw [failures_of_not_gone _ (Bool.eq_false_of_not_eq_true hpresent)] at h
  cases h

/-- A write to a full channel waits. -/
theorem waits_of_full {actions : List Action} (hv : v = (new config hooks).run actions)
    (h : v.pipe? s = some t) (ht : t.Tight n) (hwrite : v.writes s p = some d)
    (hopen : t.channel.closed = false) (hfull : t.channel.capacity ≤ t.channel.buffer.length) :
    v.Waits s p d := by
  have hsettled : Settled (.any config hooks True) v := hv ▸ settled_any_run config hooks actions
  have hp : t.writes p = some d := by
    rw [← writes_of_pipe? h]
    exact hwrite
  intro action hmove
  obtain ⟨t', ht', hstep⟩ :=
    step_of_apply hsettled h ht action (apply_eq_run hv action ▸ oneWrites_run _ s)
  rw [buffer?, buffer?, ht', h, written_of_pipe? h, written_of_pipe? ht', failures_of_pipe? h,
    failures_of_pipe? ht', writes_of_pipe? ht']
  rw [hmove] at hstep
  rcases hstep with ⟨rfl, -⟩ | hstep
  · exact ⟨rfl, rfl, rfl, .inl hp⟩
  · obtain ⟨hbuffer, hwritten, hfailures, hlost⟩ := ht.step_of_full hp hopen hfull hstep
    exact ⟨congrArg some hbuffer, hwritten, hfailures, .inr hlost⟩

/-- A write to a channel without a receiver is refused. -/
theorem isRefused_of_closed {actions : List Action} (hv : v = (new config hooks).run actions)
    (h : v.pipe? s = some t) (ht : t.Tight n) (hwrite : v.writes s p = some d)
    (hclosed : t.channel.closed = true) : v.IsRefused s p d := by
  have hsettled : Settled (.any config hooks True) v := hv ▸ settled_any_run config hooks actions
  have hp : t.writes p = some d := writes_of_pipe? h ▸ hwrite
  have hd := (ht.writes p d hp).1
  have hk := sink_of_pipe? h
  refine ⟨fun action => ?_, fun hgoes => failsClosed_of_failures hv rfl ?_⟩
  · obtain ⟨t', ht', hstep⟩ :=
      step_of_apply hsettled h ht action (apply_eq_run hv action ▸ oneWrites_run _ s)
    rw [writes_of_pipe? ht']
    rcases hstep with ⟨rfl, -⟩ | hstep
    · exact .inl hp
    · rcases ht.step_of_closed hp hclosed hstep with hsame | hfailed | hlost
      · exact .inl hsame
      · refine .inr (.inl (failsClosed_of_failures hv rfl ?_))
        rw [failures_of_pipe? ht', failures_of_pipe? h, hfailed]
      · exact .inr (.inr hlost)
  · obtain ⟨x, hx, hxk⟩ := exists_of_sink hk
    have hgo : v.deliveryReady s p d = true :=
      (deliveryReady_of_sending hx hxk hd).trans (Channel.mayGo_of_closed hclosed)
    have hready := ready_of_deliveryReady hx hwrite hgo
    have hrun : v.apply (.run (p.task s)) = v.step (p.task s) := by simp [apply, hready]
    rw [hrun]
    cases p with
    | worker => exact refused_workerStep hk hd hwrite hclosed
    | call i =>
      cases hc : v.calls[i]? with
      | none =>
        rw [writes_of_no_call hc] at hwrite
        cases hwrite
      | some c =>
        have hstep : v.step (Party.task s (.call i)) = v.callStep i c := by
          simp only [Party.task, step, hc]
        rw [hstep]
        exact refused_callStep hk hd hc ((writes_call hc).symm.trans hwrite) hclosed hgoes

/-- Nothing is written to a channel without a receiver. -/
theorem written_run_of_closed {actions : List Action} (hv : v = (new config hooks).run actions)
    (h : v.pipe? s = some t) (ht : t.Tight n) (hclosed : t.channel.closed = true)
    (later : List Action) : (v.run later).written s = v.written s := by
  induction later generalizing v t actions with
  | nil => rfl
  | cons action rest ih =>
    have hsettled : Settled (.any config hooks True) v := hv ▸ settled_any_run config hooks actions
    obtain ⟨t', ht', hstep⟩ :=
      step_of_apply hsettled h ht action (apply_eq_run hv action ▸ oneWrites_run _ s)
    have hkept : t'.Tight n ∧ t'.channel.closed = true ∧ t'.written = t.written := by
      rcases hstep with ⟨rfl, -⟩ | hstep
      · exact ⟨ht, hclosed, rfl⟩
      · exact ⟨ht.step hstep, hstep.closed hclosed⟩
    obtain ⟨htight, hclosed', hwritten⟩ := hkept
    have hrest := ih (apply_eq_run hv action) ht' htight hclosed'
    rw [written_of_pipe? ht', hwritten, ← written_of_pipe? h] at hrest
    exact hrest

/-! ### The course of a channel -/

/-- No loss. A subscriber is registered with a channel that is to have room for `n` frames, and
then anything may happen. At every moment at most `max n 1` frames wait in the channel, and as long
as the receiver is not dropped, what it has taken out, followed by them, is what was written to the
subscriber, in order: frames into which batches were processed, keep-alives among them. One write at
most is under way, which need not wait if there is room or the receiver is gone. While the channel
is full it waits. Once the receiver is dropped nothing is written any more, and a write that was
under way, or begins, is refused. -/
theorem lossless_of_channel (config : Config) (hooks : Hooks) (before more : List Action)
    (i n : Nat) (s : SessionId) (request : Subscription) (hook : HookRun)
    (hcall : ((new config hooks).run before).calls[i]? = some (.subscribing request hook))
    (hsink : request.sink = .channel (.ofCapacity n))
    (hs : ((new config hooks).run (before ++ [.run (.call i)])).calls[i]? =
      some (.returned (.ok (.subscribed s)))) :
    let r := (new config hooks).run (before ++ [.run (.call i)])
    let v := r.run more
    ∃ x c, v.session? s = some x ∧ x.sink = .channel c ∧
      c.capacity = max n 1 ∧ c.buffer.length ≤ max n 1 ∧
      c.closed = more.any (·.dropsReceiver s) ∧
      (c.closed = false → r.received s more ++ c.buffer = WriteMark.frames (v.written s)) ∧
      (∀ mark ∈ v.written s, ∃ z b, mark.frame = hooks.process z b) ∧
      (c.closed = true → ∀ later, ∃ y, (v.run later).session? s = some y ∧ x.SameRecord y ∧
        (v.run later).written s = v.written s) ∧
      ∀ p d, v.writes s p = some d →
        (∀ q, q ≠ p → v.writes s q = none) ∧
        v.deliveryReady s p d = (c.closed || decide (c.buffer.length < max n 1)) ∧
        (v.deliveryReady s p d = true → v.ready (p.task s) = true) ∧
        (c.closed = false → c.buffer.length = max n 1 → v.Waits s p d) ∧
        (c.closed = true → v.IsRefused s p d) := by
  intro r v
  have hstart : r.pipe? s = some ⟨.ofCapacity n, fun _ => none, [], []⟩ :=
    pipe?_registered before hcall hsink hs
  have hfaithful : Pipe.Faithful (ProcessedBy hooks) n [] false
      ⟨.ofCapacity n, fun _ => none, [], []⟩ := by
    refine ⟨⟨rfl, Nat.zero_le _, nofun, fun _ => rfl⟩, ⟨nofun, nofun⟩, fun _ => rfl, rfl⟩
  obtain ⟨t, ht, hnow⟩ := exists_faithful_run rfl hstart hfaithful more
  have hv : v = (new config hooks).run (before ++ [.run (.call i)] ++ more) := (run_append ..).symm
  obtain ⟨x, hx, hxk⟩ := exists_of_sink (sink_of_pipe? ht)
  refine ⟨x, t.channel, hx, hxk, hnow.tight.capacity, hnow.tight.bound, hnow.closed, ?_, ?_, ?_, ?_⟩
  · intro hopen
    rw [written_of_pipe? ht]
    exact hnow.accounts hopen
  · rw [written_of_pipe? ht]
    exact hnow.genuine.written
  · intro hclosed later
    have hwritten := written_run_of_closed hv ht hnow.tight hclosed later
    obtain ⟨y, hy, hsame⟩ := (spares_run later hv hwritten).record x hx
    exact ⟨y, hy, hsame, hwritten⟩
  · intro p d hwrite
    have hp : t.writes p = some d := writes_of_pipe? ht ▸ hwrite
    obtain ⟨hd, hsenders, hothers⟩ := hnow.tight.writes p d hp
    refine ⟨?_, ?_, ready_of_deliveryReady hx hwrite, ?_, ?_⟩
    · rw [writes_of_pipe? ht]
      exact hothers
    · rw [deliveryReady_of_sending hx hxk hd, Channel.mayGo, hsenders, hnow.tight.capacity]
      simp
    · intro hopen hfull
      exact waits_of_full hv ht hnow.tight hwrite hopen
        (hnow.tight.capacity.trans hfull.symm).le
    · exact isRefused_of_closed hv ht hnow.tight hwrite

/-- A channel that is to have room for no frame has room for one; the second write waits until the
receiver takes the first frame. -/
theorem lossless_of_channel_of_no_room :
    let r := (new {} {}).run [.subscribe { sink := .channel (.ofCapacity 0) }, .run (.call 1)]
    let more : List Action := [.sendHistorical 0 ⟨[⟨5, ""⟩]⟩, .run (.call 2), .run (.call 2),
      .sendHistorical 0 ⟨[⟨6, ""⟩]⟩, .run (.call 3), .run (.call 3), .receive 0, .run (.call 3)]
    r.received 0 more = [⟨[⟨5, ""⟩]⟩] ∧
      ∃ x c, (r.run more).session? 0 = some x ∧ x.sink = .channel c ∧ c.buffer.length ≤ 1 ∧
        (c.closed = false → r.received 0 more ++ c.buffer =
          WriteMark.frames ((r.run more).written 0)) := by
  intro r more
  obtain ⟨x, c, hx, hc, -, hbound, -, haccount, -⟩ := lossless_of_channel {} {}
    [.subscribe { sink := .channel (.ofCapacity 0) }] more 1 0 0
    { sink := .channel (.ofCapacity 0) } ⟨0, .succeed⟩ rfl rfl rfl
  exact ⟨by decide +kernel, x, c, hx, hc, hbound, haccount⟩

end Registry

end Multicast
