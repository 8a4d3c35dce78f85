import Multicast.Proofs.Registry.Leaving

/-! The steps of calls and loops. Each of them leads a settled registry to a settled one, by a chain
of shifts between the posts that the two tell of. -/

namespace Multicast

open Function (update)

/-- One registry comes out of another: by a chain of shifts, and settled. -/
structure Reaches (T : Terms) (r v : Registry) : Prop where
  shifts : Shifts T ⟨r, r.posts⟩ ⟨v, v.posts⟩
  settled : Settled T v

/-- Whether a call takes the right to wait for a worker when it goes on. -/
def Call.Joins : Call → Prop
  | .unsubscribing _ f | .farewell _ f => f = .fresh
  | _ => False

/-- Whether an action may take the right to wait for a worker. -/
def Registry.Joins (r : Registry) : Action → Prop
  | .unsubscribe _ => True
  | .run (.call i) => ∃ c, r.calls[i]? = some c ∧ c.Joins
  | _ => False

variable {T : Terms} {r v : Registry} {s : SessionId} {i : Nat} {c c' : Call}

theorem Reaches.refl (h : Settled T r) : Reaches T r r := ⟨.refl, h⟩

theorem Reaches.trans {u : Registry} (h : Reaches T r v) (h' : Reaches T v u) : Reaches T r u :=
  ⟨h.shifts.trans h'.shifts, h'.settled⟩

/-- What leaves the calls alone and brings nobody in leaves the registry settled. -/
theorem Reaches.of_shifts (hr : Settled T r) (h : Shifts T ⟨r, r.posts⟩ ⟨v, v.posts⟩)
    (hcalls : v.calls = r.calls) (hlen : v.sessions.length = r.sessions.length) : Reaches T r v := by
  refine ⟨h, hr.sound.shifts h, ?_, ?_⟩
  · intro c hc
    rw [hcalls] at hc
    exact (hr.placed c hc).shifts h
  · rw [Registry.subscribed, hcalls, hlen]
    exact hr.subscribed

theorem Reaches.of_turns (hr : Settled T r) (h : Turns T ⟨r, r.posts⟩ ⟨v, r.posts⟩) :
    Reaches T r v := by
  refine .of_shifts hr ?_ h.keeps.1 h.length_eq
  rw [show v.posts = r.posts from h.posts_eq]
  exact h.shifts

/-- A call that goes on and lands where it may leaves the registry settled. -/
theorem Reaches.setCall (hr : Settled T r) (hc : r.calls[i]? = some c') (hn : c'.subscribed? = none)
    (h : Turns T ⟨r, r.posts⟩ ⟨v, r.posts.give (.call i) (postsOf c.directs)⟩)
    (hp : c.Placed T v) (hs : c.subscribed? = none) : Reaches T r (v.setCall i c) := by
  obtain ⟨hshifts, hsettled⟩ := (Lands.of_turns h hp hs).settled hr hc hn
  exact ⟨hshifts, hsettled⟩

theorem Registry.posts_of_no_directs (hc : r.calls[i]? = some c) (hd : c.directs = [])
    (t : SessionId) : r.posts t (.call i) = .away := by
  have hposts := congrFun (Registry.posts_call hc) t
  rw [hd] at hposts
  exact hposts

/-- A call that has no direct deliveries and goes on without any. -/
theorem Reaches.setCall_quiet (hr : Settled T r) (hc : r.calls[i]? = some c')
    (hn : c'.subscribed? = none) (hd' : c'.directs = [])
    (h : Turns T ⟨r, r.posts⟩ ⟨v, r.posts⟩) (hd : c.directs = []) (hf : c.Fit T v)
    (hs : c.subscribed? = none) : Reaches T r (v.setCall i c) := by
  have hstay : r.posts.give (.call i) (postsOf c.directs) = r.posts := by
    rw [hd]
    exact Posts.give_away (Registry.posts_of_no_directs hc hd')
  refine .setCall hr hc hn ?_ (Call.placed_of_directs_eq_nil hd hf) hs
  rw [hstay]
  exact h

/-- A call that has come to its end has no direct deliveries any more. -/
theorem Reaches.setCall_over (hr : Settled T r) (hc : r.calls[i]? = some c')
    (hn : c'.subscribed? = none)
    (h : Turns T ⟨r, r.posts⟩ ⟨v, r.posts.give (.call i) fun _ => .away⟩) (hd : c.directs = [])
    (hf : c.Fit T v) (hs : c.subscribed? = none) : Reaches T r (v.setCall i c) := by
  refine .setCall hr hc hn ?_ (Call.placed_of_directs_eq_nil hd hf) hs
  rw [hd]
  exact h

namespace Registry

/-! ### Registration -/

/-- A registration that succeeds brings one subscriber in, at the end. -/
theorem reaches_enrol (hr : Settled T r) (hc : r.calls[i]? = some c') (hn : c'.subscribed? = none)
    (hd : c'.directs = []) (request : Subscription) :
    Reaches T r ((r.enrol request).1.setCall i
      (.returned (.ok (.subscribed (r.enrol request).2)))) := by
  -- nobody deals with the new subscriber yet, and its worker is not started
  have hposts : (r.enrol request).1.posts = r.posts := by
    funext s q
    cases q with
    | call j => rfl
    | worker =>
      simp only [posts, session?_enrol]
      split
      · rename_i hs
        rw [hs, session?_length]
        rfl
      · rfl
  have hlands : Lands T r i (r.enrol request).1
      (.returned (.ok (.subscribed (r.enrol request).2))) := by
    refine ⟨?_, rfl, Call.placed_of_directs_eq_nil rfl trivial, .inr ⟨List.length_append, rfl⟩⟩
    have haway : r.posts.give (.call i) (fun _ => .away) = r.posts :=
      Posts.give_away (posts_of_no_directs hc hd)
    rw [hposts]
    show Shifts T ⟨r, r.posts⟩ ⟨_, r.posts.give (.call i) fun _ => .away⟩
    rw [haway]
    exact Relation.ReflTransGen.single (.enrol request)
  obtain ⟨hshifts, hsettled⟩ := hlands.settled hr hc hn
  exact ⟨hshifts, hsettled⟩

theorem reaches_subscribeStep (hr : Settled T r) {request : Subscription} {hook : HookRun}
    (hc : r.calls[i]? = some (.subscribing request hook)) :
    Reaches T r (r.subscribeStep i request hook) := by
  unfold subscribeStep
  cases hook.step r.now with
  | running hook' => exact .setCall_quiet hr hc rfl rfl (.refl _) rfl trivial rfl
  | crashed => exact .setCall_quiet hr hc rfl rfl (.refl _) rfl trivial rfl
  | done result =>
    cases result with
    | error e => exact .setCall_quiet hr hc rfl rfl (.refl _) rfl trivial rfl
    | ok _ =>
      dsimp only
      split
      · exact .setCall_quiet hr hc rfl rfl (.refl _) rfl trivial rfl
      · exact reaches_enrol hr hc rfl rfl request

/-! ### Direct deliveries -/

theorem reaches_backfillStep (hr : Settled T r) {b : Backfill}
    (hc : r.calls[i]? = some (.backfilling b)) (hready : r.directReady (.call i) b.current = true) :
    Reaches T r (settleCall i .backfilling returnedCount (r.backfillStep (.call i) b)) := by
  have hplaced := hr.placed _ (List.mem_of_getElem? hc)
  have hp : ∀ t, r.posts t (.call i) = postsOf [b.current] t := congrFun (posts_call hc)
  obtain ⟨hturns, hrunning⟩ := turns_backfillStep hr.sound hplaced hp hready
  rcases hstep : r.backfillStep (.call i) b with ⟨v, progress⟩
  rw [hstep] at hturns hrunning
  cases progress with
  | running b' => exact .setCall hr hc rfl hturns (hrunning b' rfl) rfl
  | done n => exact .setCall_over hr hc rfl hturns rfl trivial rfl
  | crashed => exact .setCall_over hr hc rfl hturns rfl trivial rfl

theorem reaches_sendStep (hr : Settled T r) {d : Direct} (hc : r.calls[i]? = some (.sending d))
    (hready : r.directReady (.call i) d = true) :
    Reaches T r (sent i (r.directStep (.call i) d)) := by
  have hplaced := hr.placed _ (List.mem_of_getElem? hc)
  have hp : ∀ t, r.posts t (.call i) = postsOf [d] t := congrFun (posts_call hc)
  obtain ⟨hturns, hrunning⟩ := turns_directStep_single hr.sound hplaced.directs hp hready
  rcases hstep : r.directStep (.call i) d with ⟨v, progress⟩
  rw [hstep] at hturns hrunning
  cases progress with
  | running d' => exact .setCall hr hc rfl hturns ⟨(hrunning d' rfl).2.2, trivial⟩ rfl
  | done reached =>
    refine .setCall_over hr hc rfl (Turns.count hturns ?_) rfl trivial rfl
    exact Metrics.neutral_batchPublished .historical _
  | crashed => exact .setCall_over hr hc rfl hturns rfl trivial rfl

/-! ### Sweeps and farewells -/

theorem reaches_settleCall (hr : Settled T r) (hc : r.calls[i]? = some c')
    (hn : c'.subscribed? = none) (hd' : c'.directs = []) {σ : Type} {wrap : σ → Call}
    (hd : ∀ st, (wrap st).directs = []) (hf : ∀ st u, (wrap st).Fit T u)
    (hs : ∀ st, (wrap st).subscribed? = none) {o : Registry × Progress σ Nat}
    (h : Turns T ⟨r, r.posts⟩ ⟨o.1, r.posts⟩) :
    Reaches T r (settleCall i wrap returnedCount o) := by
  obtain ⟨v, progress⟩ := o
  cases progress with
  | running st => exact .setCall_quiet hr hc hn hd' h (hd st) (hf st v) (hs st)
  | done n => exact .setCall_quiet hr hc hn hd' h rfl trivial rfl
  | crashed => exact .setCall_quiet hr hc hn hd' h rfl trivial rfl

theorem reaches_farewellProgress (hr : Settled T r) {f : Farewell}
    (hc : r.calls[i]? = some (.farewell s f)) (hj : f = .fresh → T.mayJoin) :
    Reaches T r (farewellProgress i s (r.farewellStep s f)) := by
  have hremoved := (hr.placed _ (List.mem_of_getElem? hc)).fit
  have hturns := turns_farewellStep hr.sound hremoved hj
  rcases hstep : r.farewellStep s f with ⟨v, progress⟩
  rw [hstep] at hturns
  cases progress with
  | running f' => exact .setCall_quiet hr hc rfl rfl hturns rfl (hturns.shifts.removed hremoved) rfl
  | crashed => exact .setCall_quiet hr hc rfl rfl hturns rfl trivial rfl
  | done result =>
    have hnoted := turns_noteReturn (T := T) v r.posts s .farewellFailed
      (fun _ _ _ => rfl) result
    exact .setCall_quiet hr hc rfl rfl (hturns.trans hnoted) rfl trivial rfl

/-- A call that unsubscribes goes on from a chain of turns that has removed the subscriber. -/
theorem reaches_unsubscribeProgress (hr : Settled T r) (hc : r.calls[i]? = some c')
    (hn : c'.subscribed? = none) (hd : c'.directs = [])
    {o : Registry × Progress Farewell (Except HookError Unit)}
    (h : Turns T ⟨r, r.posts⟩ ⟨o.1, r.posts⟩)
    (hs : ∃ x, o.1.session? s = some x ∧ x.stage = .removed) :
    Reaches T r (unsubscribeProgress i s o) := by
  obtain ⟨v, progress⟩ := o
  cases progress with
  | running f => exact .setCall_quiet hr hc hn hd h rfl hs rfl
  | crashed => exact .setCall_quiet hr hc hn hd h rfl trivial rfl
  | done result =>
    cases result with
    | ok _ =>
      refine .setCall_quiet hr hc hn hd (Turns.note h ?_) rfl trivial rfl
      exact fun _ => rfl
    | error e =>
      refine .setCall_quiet hr hc hn hd (Turns.note h ?_) rfl trivial rfl
      exact fun _ => rfl

/-! ### Loops -/

theorem reaches_sweepLoopProgress (hr : Settled T r) (hc : r.calls[i]? = some c')
    (hn : c'.subscribed? = none) (hd : c'.directs = []) (l : Loop SweepPass)
    {o : Registry × Progress SweepPass Nat} (h : Turns T ⟨r, r.posts⟩ ⟨o.1, r.posts⟩) :
    Reaches T r (sweepLoopProgress i l o) := by
  obtain ⟨v, progress⟩ := o
  cases progress with
  | running pass => exact .setCall_quiet hr hc hn hd h rfl trivial rfl
  | done n => exact .setCall_quiet hr hc hn hd h rfl trivial rfl
  | crashed => exact .setCall_quiet hr hc hn hd h rfl trivial rfl

theorem turns_beginSweep :
    Turns T ⟨r, r.posts⟩ ⟨r.beginSweep.1, r.posts⟩ :=
  turns_nextSweep 0 _

theorem reaches_sweepTick (hr : Settled T r) {l : Loop SweepPass}
    (hc : r.calls[i]? = some (.sweepLoop l)) : Reaches T r (r.sweepTick i l) :=
  reaches_sweepLoopProgress hr hc rfl rfl _ turns_beginSweep

theorem reaches_sweepLoopStep (hr : Settled T r) {l : Loop SweepPass}
    (hc : r.calls[i]? = some (.sweepLoop l)) : Reaches T r (r.sweepLoopStep i l) := by
  unfold sweepLoopStep
  split
  · exact reaches_sweepLoopProgress hr hc rfl rfl l (turns_sweepStep _)
  · split
    · refine .setCall_quiet hr hc rfl rfl (Turns.note (.refl _) ?_) rfl trivial rfl
      exact fun _ => rfl
    · exact reaches_sweepTick hr hc

/-- A ping loop goes on, its pings standing where the round has left them. -/
theorem reaches_pingLoopProgress (hr : Settled T r) (hc : r.calls[i]? = some c')
    (hn : c'.subscribed? = none) (l : Loop PingPass) {o : Registry × Progress PingPass Nat}
    (h : Turns T ⟨r, r.posts⟩ ⟨o.1, r.posts.give (.call i)
      (o.2.postsBy fun pass => .pingLoop { l with pass := some pass })⟩)
    (hp : ∀ pass, o.2 = .running pass → PingsPlaced T o.1 pass.pings) :
    Reaches T r (pingLoopProgress i l o) := by
  obtain ⟨v, progress⟩ := o
  cases progress with
  | running pass =>
    obtain ⟨hdirects, hpings⟩ := hp pass rfl
    refine .setCall hr hc hn h ⟨hdirects, ?_⟩ rfl
    intro pass' hpass d hd
    obtain rfl := Option.some.inj hpass
    exact hpings d hd
  | done n =>
    refine .setCall_over hr hc hn (Turns.note h ?_) rfl ?_ rfl
    · exact fun _ => rfl
    · exact nofun
  | crashed => exact .setCall_over hr hc hn h rfl trivial rfl

theorem reaches_pingTick (hr : Settled T r) {l : Loop PingPass}
    (hc : r.calls[i]? = some (.pingLoop l)) (hl : l.pass = none) :
    Reaches T r (r.pingTick i l) := by
  have hd : (Call.pingLoop l).directs = [] := by simp only [Call.directs, hl]
  obtain ⟨hturns, hrunning⟩ := turns_beginPings hr.sound (posts_of_no_directs hc hd)
    (fun pass => .pingLoop { l with next := l.after r.nanos, pass := some pass }) (fun _ => rfl)
  exact reaches_pingLoopProgress hr hc rfl { l with next := l.after r.nanos } hturns hrunning

theorem reaches_pingLoopStep (hr : Settled T r) {l : Loop PingPass}
    (hc : r.calls[i]? = some (.pingLoop l)) : Reaches T r (r.pingLoopStep i l) := by
  unfold pingLoopStep
  cases hl : l.pass with
  | some pass =>
    have hplaced := hr.placed _ (List.mem_of_getElem? hc)
    have hd : (Call.pingLoop l).directs = pingDirects pass.pings := by simp only [Call.directs, hl]
    have hp : ∀ t, r.posts t (.call i) = postsOf (pingDirects pass.pings) t := by
      rw [← hd]
      exact congrFun (posts_call hc)
    have hpings : PingsPlaced T r pass.pings := ⟨hd ▸ hplaced.directs, hplaced.fit pass hl⟩
    obtain ⟨hturns, hrunning⟩ := turns_pingStep hr.sound hpings hp
      (fun pass => .pingLoop { l with pass := some pass }) (fun _ => rfl)
    exact reaches_pingLoopProgress hr hc rfl l hturns hrunning
  | none =>
    dsimp only
    split
    · have hd : (Call.pingLoop l).directs = [] := by simp only [Call.directs, hl]
      refine .setCall_quiet hr hc rfl hd (Turns.note (.refl _) ?_) rfl trivial rfl
      exact fun _ => rfl
    · exact reaches_pingTick hr hc hl

theorem reaches_pingStep (hr : Settled T r) {pass : PingPass}
    (hc : r.calls[i]? = some (.pinging pass)) :
    Reaches T r (settleCall i .pinging returnedCount (r.pingStep (.call i) pass)) := by
  have hplaced := hr.placed _ (List.mem_of_getElem? hc)
  have hp : ∀ t, r.posts t (.call i) = postsOf (pingDirects pass.pings) t := congrFun (posts_call hc)
  obtain ⟨hturns, hrunning⟩ := turns_pingStep hr.sound ⟨hplaced.directs, hplaced.fit⟩ hp
    Call.pinging (fun _ => rfl)
  rcases hstep : r.pingStep (.call i) pass with ⟨v, progress⟩
  rw [hstep] at hturns hrunning
  cases progress with
  | running pass' =>
    obtain ⟨hdirects, hpings⟩ := hrunning pass' rfl
    exact .setCall hr hc rfl hturns ⟨hdirects, hpings⟩ rfl
  | done n => exact .setCall_over hr hc rfl hturns rfl trivial rfl
  | crashed => exact .setCall_over hr hc rfl hturns rfl trivial rfl

/-! ### Stopping -/

theorem turns_noteCrashes (P : Posts) (is : List Nat) :
    Turns T ⟨r, P⟩ ⟨noteCrashes is r, P⟩ := by
  induction is generalizing r with
  | nil => exact .refl _
  | cons j rest ih =>
    have hnoted : Turns T ⟨r, P⟩ ⟨r.note .farewellCrashed, P⟩ := (Turns.refl _).note fun _ => rfl
    rw [noteCrashes]
    split
    · exact hnoted.trans ih
    · exact ih

theorem reaches_stopStep (hr : Settled T r) {p : StopPoint} (hc : r.calls[i]? = some (.stopping p)) :
    Reaches T r (r.stopStep i p) := by
  have hnoted := turns_noteCrashes (T := T) (r := r) r.posts (p.waiting.filter r.isOver)
  unfold stopStep
  dsimp only
  split
  · refine .setCall_quiet hr hc rfl rfl (Turns.note hnoted ?_) rfl trivial rfl
    exact fun _ => rfl
  · split
    · refine .setCall_quiet hr hc rfl rfl (Turns.note hnoted ?_) rfl trivial rfl
      exact fun _ => rfl
    · exact .setCall_quiet hr hc rfl rfl hnoted rfl trivial rfl

/-! ### Every task -/

theorem apply_call (hc : r.calls[i]? = some c) (hready : r.callReady i c = true) :
    r.apply (.run (.call i)) = r.callStep i c := by
  simp only [apply, ready, step, hc, hready, if_true]

/-- A call that has to wait does nothing. -/
theorem apply_call_of_waiting (hc : r.calls[i]? = some c) (hready : r.callReady i c = false) :
    r.apply (.run (.call i)) = r := by
  simp only [apply, ready, hc, hready, Bool.false_eq_true, if_false]

/-- A call that need not wait goes on to a point where it may stand. -/
theorem reaches_callStep (hr : Settled T r) (hc : r.calls[i]? = some c)
    (hready : r.callReady i c = true) (hj : c.Joins → T.mayJoin) :
    Reaches T r (r.callStep i c) := by
  cases c with
  | subscribing request hook => exact reaches_subscribeStep hr hc
  | backfilling b => exact reaches_backfillStep hr hc hready
  | sending d => exact reaches_sendStep hr hc hready
  | unsubscribing s f =>
    -- who takes leave of a subscriber stands where it may only after the removal
    have hremoved := (hr.placed _ (List.mem_of_getElem? hc)).fit
    have hturns := turns_farewellStep hr.sound hremoved hj
    exact reaches_unsubscribeProgress hr hc rfl rfl hturns (hturns.shifts.removed hremoved)
  | farewell s f => exact reaches_farewellProgress hr hc hj
  | sweeping p =>
    refine reaches_settleCall hr hc rfl rfl ?_ ?_ ?_ (turns_sweepStep p)
    · exact fun _ => rfl
    · exact fun _ _ => trivial
    · exact fun _ => rfl
  | pinging p => exact reaches_pingStep hr hc
  | stopping p => exact reaches_stopStep hr hc
  | awaitingRemoval s => exact .setCall_quiet hr hc rfl rfl (.refl _) rfl trivial rfl
  | sweepLoop l => exact reaches_sweepLoopStep hr hc
  | pingLoop l => exact reaches_pingLoopStep hr hc
  | returned _ => cases hready
  | crashed => cases hready

/-- A task that need not wait leaves the registry settled. -/
theorem reaches_step (hr : Settled T r) {t : Task} (hready : r.ready t = true)
    (hj : r.Joins (.run t) → T.mayJoin) : Reaches T r (r.step t) := by
  cases t with
  | worker s =>
    have hworks := works_workerStep hr.sound hready
    exact .of_shifts hr hworks.shifts hworks.calls hworks.length_eq
  | call i =>
    cases hc : r.calls[i]? with
    | none => simp [ready, hc] at hready
    | some c =>
      simp only [ready, hc] at hready
      simp only [step, hc]
      exact reaches_callStep hr hc hready fun hjoins => hj ⟨c, hc, hjoins⟩

end Registry

end Multicast
