import Mathlib.Algebra.BigOperators.Group.List.Basic
import Multicast.Proofs.Registry.Lifecycle
import Multicast.Proofs.Registry.Run
import Multicast.Proofs.Traffic.Calls

/-! Every action as a chain of transfers. What a registry has in hand is what its calls and workers
have; whoever goes on takes along what it had, so that nothing is lost between two steps. -/

namespace Multicast

/-- What can happen to the traffic at once. Other than a transit, a transfer may change where calls
and workers stand; what is in hand is the same before and after such a change. -/
inductive Transfer : Traffic → Traffic → Prop
  | transit {a b} (h : Transit a b) : Transfer a b
  | beside {r H} (calls : List Call) (now : Nat) (tokens : List String)
      (ht : ∀ token ∈ r.cancelledTokens, token ∈ tokens) :
      Transfer ⟨r, H⟩ ⟨{ r with calls := calls, now := now, cancelledTokens := tokens }, H⟩
  | work {r H s x} (w : WorkerPoint Delivery) (hx : r.session? s = some x) :
      Transfer ⟨r, H⟩ ⟨r.put s { x with worker := w } [], H⟩
  | enrol {r H} (request : Subscription) : Transfer ⟨r, H⟩ ⟨(r.enrol request).1, H⟩

/-- A chain of transfers. -/
abbrev Transfers : Traffic → Traffic → Prop := Relation.ReflTransGen Transfer

theorem Transits.transfers {a b : Traffic} (h : Transits a b) : Transfers a b := by
  induction h with
  | refl => exact .refl
  | tail _ hstep ih => exact ih.tail (.transit hstep)

/-- A sum splits into one of its terms and the rest, which stays when the term changes. -/
theorem exists_sum_set {M : Type} [AddCommMonoid M] {l : List M} {i : Nat} {m : M}
    (h : l[i]? = some m) : ∃ n, l.sum = m + n ∧ ∀ m', (l.set i m').sum = m' + n := by
  induction l generalizing i with
  | nil => cases h
  | cons k rest ih =>
    cases i with
    | zero =>
      obtain rfl : k = m := Option.some.inj h
      exact ⟨rest.sum, List.sum_cons, fun _ => List.sum_cons⟩
    | succ j =>
      obtain ⟨n, hsum, hset⟩ := ih h
      refine ⟨k + n, ?_, ?_⟩
      · rw [List.sum_cons, hsum, add_left_comm]
      · intro m'
        rw [List.set_cons_succ, List.sum_cons, hset, add_left_comm]

namespace Registry

variable {T : Terms} {r u v : Registry} {s : SessionId} {x : Session} {i : Nat} {c : Call}
  {now : Nat} {o : WriteOutcome} {G : Multiset Hand}

/-! ### What is in hand -/

/-- What each worker has in hand. -/
def workerHands (r : Registry) : List (Multiset Hand) :=
  r.sessions.mapIdx fun s x => WorkerPoint.hands s x.worker

/-- All that calls and workers have in hand. -/
def hands (r : Registry) : Multiset Hand := (r.calls.map Call.hands).sum + r.workerHands.sum

theorem SameTasks.workerHands_eq (h : r.SameTasks v) : v.workerHands = r.workerHands := by
  apply List.ext_getElem?
  intro s
  have hworker := congrArg (Option.map (WorkerPoint.hands s)) (h.worker s)
  rw [Option.map_map, Option.map_map] at hworker
  unfold workerHands
  rw [List.getElem?_mapIdx, List.getElem?_mapIdx]
  exact hworker

theorem SameTasks.hands_eq (h : r.SameTasks v) : v.hands = r.hands := by
  rw [hands, hands, h.calls, h.workerHands_eq]

theorem exists_hands_call (hc : r.calls[i]? = some c) : ∃ G, r.hands = c.hands + G ∧
    ∀ u, r.SameTasks u → ∀ c', (u.setCall i c').hands = c'.hands + G := by
  have hget : (r.calls.map Call.hands)[i]? = some c.hands := by
    rw [List.getElem?_map, hc, Option.map_some]
  obtain ⟨n, hsum, hset⟩ := exists_sum_set hget
  refine ⟨n + r.workerHands.sum, ?_, ?_⟩
  · rw [hands, hsum, add_assoc]
  · intro u hu c'
    have hworkers : (u.setCall i c').workerHands = r.workerHands := hu.workerHands_eq
    have hcalls : (u.setCall i c').calls = r.calls.set i c' := by rw [setCall, hu.calls]
    rw [hands, hworkers, hcalls, List.map_set, hset, add_assoc]

theorem exists_hands_worker (hx : r.session? s = some x) :
    ∃ G, r.hands = WorkerPoint.hands s x.worker + G ∧
      ∀ u, r.SameTasks u → ∀ y w, u.session? s = some y →
        (u.put s { y with worker := w } []).hands = WorkerPoint.hands s w + G := by
  have hget : r.workerHands[s]? = some (WorkerPoint.hands s x.worker) := by
    have hx' : r.sessions[s]? = some x := hx
    rw [workerHands, List.getElem?_mapIdx, hx', Option.map_some]
  obtain ⟨n, hsum, hset⟩ := exists_sum_set hget
  refine ⟨(r.calls.map Call.hands).sum + n, ?_, ?_⟩
  · rw [hands, hsum, add_left_comm]
  · intro u hu y w hy
    have hworkers : (u.put s { y with worker := w } []).workerHands =
        r.workerHands.set s (WorkerPoint.hands s w) := by
      rw [← hu.workerHands_eq]
      exact List.mapIdx_set
    have hcalls : (u.put s { y with worker := w } []).calls = r.calls := hu.calls
    rw [hands, hworkers, hcalls, hset, add_left_comm]

theorem hands_addCall (r : Registry) (c : Call) : (r.addCall c).hands = c.hands + r.hands := by
  have hworkers : (r.addCall c).workerHands = r.workerHands := rfl
  have hcalls : (r.addCall c).calls = r.calls ++ [c] := rfl
  rw [hands, hands, hworkers, hcalls, List.map_append, List.sum_append, List.map_singleton,
    List.sum_singleton, add_comm _ c.hands, add_assoc]

/-! ### Handing over -/

/-- What one registry has in hand becomes what another has. -/
def HandsOver (r v : Registry) : Prop := Transfers ⟨r, r.hands⟩ ⟨v, v.hands⟩

namespace HandsOver

theorem refl (r : Registry) : HandsOver r r := Relation.ReflTransGen.refl

theorem trans (h : HandsOver r u) (h' : HandsOver u v) : HandsOver r v :=
  Relation.ReflTransGen.trans h h'

/-- What does not touch what is in hand leaves all tasks where they are. -/
theorem of_carries (h : Carries r 0 v 0) : HandsOver r v := by
  have hchain := h r.hands
  rw [zero_add] at hchain
  rw [HandsOver, h.keeps.hands_eq]
  exact hchain.transfers

theorem of_callGoesOn (hc : r.calls[i]? = some c) (h : CallGoesOn i c.hands r v) :
    HandsOver r v := by
  obtain ⟨u, c', hu, rfl⟩ := h
  -- what all others have in hand is `G` before and after
  obtain ⟨G, hbefore, hafter⟩ := exists_hands_call hc
  have hchain := (hu G).transfers
  rw [← hbefore, ← hafter u hu.keeps c'] at hchain
  exact hchain.tail (.beside (u.calls.set i c') u.now u.cancelledTokens fun _ => id)

theorem of_worksOff (hx : r.session? s = some x)
    (h : WorksOff s (WorkerPoint.hands s x.worker) r v) : HandsOver r v := by
  obtain ⟨u, w, hu, rfl⟩ := h
  obtain ⟨y, hy⟩ := hu.known hx
  have hput : u.setWorker s w = u.put s { y with worker := w } [] := update_eq_put hy _
  obtain ⟨G, hbefore, hafter⟩ := exists_hands_worker hx
  have hchain := (hu G).transfers
  rw [← hbefore, ← hafter u hu.keeps y w hy] at hchain
  rw [hput]
  exact hchain.tail (.work w hy)

/-- A call that is made with nothing in hand. -/
theorem addCall (r : Registry) (hc : c.hands = 0) : HandsOver r (r.addCall c) := by
  have hsame : (r.addCall c).hands = r.hands := by rw [hands_addCall, hc, zero_add]
  rw [HandsOver, hsame]
  exact Relation.ReflTransGen.single (.beside (r.calls ++ [c]) r.now r.cancelledTokens fun _ => id)

theorem addCalls {cs : List Call} (hcs : ∀ c ∈ cs, c.hands = 0) :
    HandsOver r { r with calls := r.calls ++ cs } := by
  induction cs generalizing r with
  | nil =>
    rw [List.append_nil]
    exact .refl r
  | cons c rest ih =>
    have hfirst := addCall r (hcs c List.mem_cons_self)
    have hrest := ih (r := r.addCall c) fun d hd => hcs d (List.mem_cons_of_mem c hd)
    have hcalls : (r.addCall c).calls ++ rest = r.calls ++ c :: rest := by
      simp [Registry.addCall]
    rw [hcalls] at hrest
    exact hfirst.trans hrest

/-- A call that is made goes on at once from its start, with nothing in hand. -/
theorem startCall {f : Nat → Registry → Registry}
    (h : CallGoesOn r.calls.length 0 (r.addCall .crashed)
      (f r.calls.length (r.addCall .crashed))) : HandsOver r (r.startCall f) := by
  obtain ⟨w, c, hw, hf⟩ := h
  rw [Registry.startCall, hf]
  have hplaced : (r.addCall c).SameTasks (w.setCall r.calls.length c) := by
    refine ⟨?_, hw.keeps.worker⟩
    rw [setCall, hw.keeps.calls]
    simp [Registry.addCall]
  have hafter : (w.setCall r.calls.length c).hands = c.hands + r.hands := by
    rw [hplaced.hands_eq, hands_addCall]
  -- the call that stands in for the new one has nothing in hand either
  have hbegin : Transfer ⟨r, r.hands⟩ ⟨r.addCall .crashed, r.hands⟩ :=
    .beside (r.calls ++ [.crashed]) r.now r.cancelledTokens fun _ => id
  have hchain := (hw r.hands).transfers
  rw [zero_add, ← hafter] at hchain
  exact (Relation.ReflTransGen.head hbegin hchain).tail
    (.beside (w.calls.set r.calls.length c) w.now w.cancelledTokens fun _ => id)

end HandsOver

/-! ### Calls and loops -/

theorem CallGoesOn.idle {c' : Call} (h : Carries r G u 0) (hc : c'.hands = 0) :
    CallGoesOn i G r (u.setCall i c') := by
  refine ⟨u, c', ?_, rfl⟩
  rw [hc]
  exact h

theorem callGoesOn_unsubscribeProgress
    {p : Registry × Progress Farewell (Except HookError Unit)}
    (h : Carries r 0 p.1 (p.2.handsBy (.farewell s))) :
    CallGoesOn i 0 r (unsubscribeProgress i s p) := by
  obtain ⟨w, progress⟩ := p
  cases progress with
  | running f => exact ⟨w, .unsubscribing s f, h, rfl⟩
  | crashed => exact ⟨w, .crashed, h, rfl⟩
  | done result =>
    cases result with
    | ok _ => exact .idle (Carries.note h id) rfl
    | error _ => exact .idle (Carries.note h id) rfl

theorem callGoesOn_farewellProgress {p : Registry × Progress Farewell (Except HookError Unit)}
    (h : Carries r 0 p.1 (p.2.handsBy (.farewell s))) :
    CallGoesOn i 0 r (farewellProgress i s p) := by
  obtain ⟨w, progress⟩ := p
  cases progress with
  | running f => exact ⟨w, .farewell s f, h, rfl⟩
  | crashed => exact ⟨w, .crashed, h, rfl⟩
  | done result => exact .idle (carries_noteReturn h (fun _ _ => id) result) rfl

theorem callGoesOn_sweepLoopProgress {l : Loop SweepPass} {p : Registry × Progress SweepPass Nat}
    (h : Carries r 0 p.1 (p.2.handsBy .sweeping)) :
    CallGoesOn i 0 r (sweepLoopProgress i l p) := by
  obtain ⟨w, progress⟩ := p
  cases progress with
  | running pass => exact .idle h rfl
  | crashed => exact ⟨w, .crashed, h, rfl⟩
  | done n => exact .idle h rfl

theorem callGoesOn_pingLoopProgress {l : Loop PingPass} {p : Registry × Progress PingPass Nat}
    (h : Carries r G p.1 (p.2.handsBy .pinging)) : CallGoesOn i G r (pingLoopProgress i l p) := by
  obtain ⟨w, progress⟩ := p
  cases progress with
  | running pass => exact ⟨w, .pingLoop { l with pass := some pass }, h, rfl⟩
  | crashed => exact ⟨w, .crashed, h, rfl⟩
  | done n => exact .idle (Carries.note h id) rfl

theorem callGoesOn_sweepTick (l : Loop SweepPass) : CallGoesOn i 0 r (r.sweepTick i l) :=
  callGoesOn_sweepLoopProgress (carries_nextSweep 0 _)

theorem callGoesOn_pingTick (l : Loop PingPass) : CallGoesOn i 0 r (r.pingTick i l) :=
  callGoesOn_pingLoopProgress (carries_beginPings .pinging fun _ => rfl)

theorem hands_pingLoop_of_idle {l : Loop PingPass} (h : l.pass = none) :
    (Call.pingLoop l).hands = 0 := by
  rw [Call.hands, h]

theorem callGoesOn_sweepLoopStep (l : Loop SweepPass) : CallGoesOn i 0 r (r.sweepLoopStep i l) := by
  unfold sweepLoopStep
  split
  · exact callGoesOn_sweepLoopProgress (carries_sweepStep _)
  · split
    · exact .idle ((Carries.refl r 0).note id) rfl
    · exact callGoesOn_sweepTick l

theorem callGoesOn_pingLoopStep (l : Loop PingPass) :
    CallGoesOn i (Call.pingLoop l).hands r (r.pingLoopStep i l) := by
  unfold pingLoopStep
  cases hpass : l.pass with
  | some pass =>
    have hhands : (Call.pingLoop l).hands = pingHands pass.pings := by rw [Call.hands, hpass]
    rw [hhands]
    exact callGoesOn_pingLoopProgress (carries_pingStep .pinging (fun _ => rfl) pass)
  | none =>
    rw [hands_pingLoop_of_idle hpass]
    dsimp only
    split
    · exact .idle ((Carries.refl r 0).note id) rfl
    · exact callGoesOn_pingTick l

theorem callGoesOn_stopStep (p : StopPoint) : CallGoesOn i 0 r (r.stopStep i p) := by
  have hnoted := carries_noteCrashes (Carries.refl r 0) (p.waiting.filter r.isOver)
  unfold stopStep
  dsimp only
  split
  · exact .idle (hnoted.note id) rfl
  · split
    · exact .idle (hnoted.note id) rfl
    · exact .idle hnoted rfl

/-- The queue of a subscriber that has been removed is empty. -/
theorem contents_of_removed (hr : Settled T r)
    (hs : ∃ x, r.session? s = some x ∧ x.stage = .removed) :
    ∀ x, r.session? s = some x → x.queue.heap.contents = 0 := by
  intro x hx
  obtain ⟨y, hy, hstage⟩ := hs
  obtain rfl := Option.some.inj (hy.symm.trans hx)
  have hlawful := hr.sound.lawful s y hx
  exact hlawful.emptied (hlawful.closed.mpr hstage)

theorem handsOver_subscribeStep (hc : r.calls[i]? = some c) (hn : c.hands = 0)
    (request : Subscription) (hook : HookRun) : HandsOver r (r.subscribeStep i request hook) := by
  have hidle {c' : Call} (hc' : c'.hands = 0) : HandsOver r (r.setCall i c') := by
    apply HandsOver.of_callGoesOn hc
    rw [hn]
    exact .idle (.refl r 0) hc'
  unfold subscribeStep
  split
  · exact hidle rfl
  · apply HandsOver.of_callGoesOn hc
    rw [hn]
    exact ⟨r, .crashed, (Carries.refl r 0).crash, rfl⟩
  · exact hidle rfl
  · split
    · exact hidle rfl
    · -- whoever has just been brought in has no worker yet
      have hworkers : (r.enrol request).1.workerHands = r.workerHands ++ [0] :=
        List.mapIdx_concat
      have hcalls : (r.enrol request).1.calls = r.calls := rfl
      have hsame : (r.enrol request).1.hands = r.hands := by
        rw [hands, hands, hworkers, hcalls, List.sum_append, List.sum_singleton, add_zero]
      have henrol : HandsOver r (r.enrol request).1 := by
        rw [HandsOver, hsame]
        exact Relation.ReflTransGen.single (.enrol request)
      refine henrol.trans (.of_callGoesOn (c := c) hc ?_)
      rw [hn]
      exact .idle (.refl _ 0) rfl

/-- Whatever a call has in hand, it has it still, or has passed it on, when it has gone on. -/
theorem handsOver_callStep (hr : Settled T r) (hc : r.calls[i]? = some c) :
    HandsOver r (r.callStep i c) := by
  have hfit := (hr.placed c (List.mem_of_getElem? hc)).fit
  cases c with
  | subscribing request hook => exact handsOver_subscribeStep hc rfl request hook
  | backfilling b =>
    exact .of_callGoesOn hc (callGoesOn_settleCall (carries_backfillStep b) fun _ => rfl)
  | sending d =>
    apply HandsOver.of_callGoesOn hc
    exact callGoesOn_sent (carries_directStep DeliveryKind.noConfusion d)
  | unsubscribing s f =>
    exact .of_callGoesOn hc (callGoesOn_unsubscribeProgress
      (carries_farewellStep f (contents_of_removed hr hfit)))
  | farewell s f =>
    exact .of_callGoesOn hc (callGoesOn_farewellProgress
      (carries_farewellStep f (contents_of_removed hr hfit)))
  | sweeping p =>
    exact .of_callGoesOn hc (callGoesOn_settleCall (carries_sweepStep p) fun _ => rfl)
  | pinging p =>
    exact .of_callGoesOn hc
      (callGoesOn_settleCall (carries_pingStep .pinging (fun _ => rfl) p) fun _ => rfl)
  | stopping p => exact .of_callGoesOn hc (callGoesOn_stopStep p)
  | awaitingRemoval s => exact .of_callGoesOn hc (.idle (.refl r 0) rfl)
  | sweepLoop l => exact .of_callGoesOn hc (callGoesOn_sweepLoopStep l)
  | pingLoop l => exact .of_callGoesOn hc (callGoesOn_pingLoopStep l)
  | returned _ => exact .refl r
  | crashed => exact .refl r

theorem handsOver_step (hr : Settled T r) (t : Task) : HandsOver r (r.step t) := by
  cases t with
  | call i =>
    unfold step
    dsimp only
    split
    · rename_i c hc
      exact handsOver_callStep hr hc
    · exact .refl r
  | worker s =>
    cases hx : r.session? s with
    | none =>
      have hsame : r.step (.worker s) = r := by simp only [step, workerStep, hx]
      rw [hsame]
      exact .refl r
    | some x =>
      have hempty := (hr.sound.lawful s x hx).emptied
      exact .of_worksOff hx (worksOff_workerStep hx hempty)

/-! ### What is let go on from outside -/

theorem release?_kind {run run' : Delivery} (h : release? now o run = some run') :
    run'.kind = run.kind := by
  unfold release? at h
  split at h
  · obtain rfl := Option.some.inj h
    rfl
  · cases h

/-- A write that is let go on is the same write. -/
theorem carries_releaseDirect {path : DeliveryKind} {d d' : Direct}
    (h : releaseDirect? now s o d = some d') : Carries r {d.hand path} r {d'.hand path} := by
  obtain ⟨run, run', hrelease, rfl, hrun, rfl⟩ := releaseDirect?_some h
  obtain ⟨hframe, -, hw⟩ := release?_some hrelease
  have hkind : run'.kind = run.kind := release?_kind hrelease
  have hhand : d.hand path = .busy path d.session run := by rw [Direct.hand, hrun]
  rw [hhand]
  exact .of_hand fun _ => .goOn path run run' hkind hframe hw

theorem carries_releasePings {ps ps' : List PingPoint} (h : releasePings? now s o ps = some ps') :
    Carries r (pingHands ps) r (pingHands ps') := by
  induction ps generalizing ps' with
  | nil => cases h
  | cons point rest ih =>
    rw [releasePings?.eq_def] at h
    -- the ping whose write is let go on is the first with such a write
    have hlater (h : (releasePings? now s o rest).map (point :: ·) = some ps') :
        Carries r (pingHands (point :: rest)) r (pingHands ps') := by
      obtain ⟨rest', hrest, rfl⟩ := Option.map_eq_some_iff.mp h
      exact (ih hrest).beside point
    cases point with
    | answered reached => exact hlater h
    | waiting d =>
      cases hd : releaseDirect? now s o d with
      | none =>
        simp only [hd] at h
        exact hlater h
      | some d' =>
        simp only [hd] at h
        cases h
        rw [pingHands_cons, pingHands_cons]
        exact (carries_releaseDirect hd).frame (pingHands rest)

theorem carries_releaseCall {c c' : Call} (h : releaseCall? now s o c = some c') :
    Carries r c.hands r c'.hands := by
  cases c with
  | backfilling b =>
    obtain ⟨d', hd, rfl⟩ := Option.map_eq_some_iff.mp h
    exact (carries_releaseDirect hd).frame _
  | sending d =>
    obtain ⟨d', hd, rfl⟩ := Option.map_eq_some_iff.mp h
    exact carries_releaseDirect hd
  | pinging p =>
    obtain ⟨ps, hps, rfl⟩ := Option.map_eq_some_iff.mp h
    exact carries_releasePings hps
  | pingLoop l =>
    obtain ⟨ps, hbind, rfl⟩ := Option.map_eq_some_iff.mp h
    obtain ⟨p, hpass, hps⟩ := Option.bind_eq_some_iff.mp hbind
    have hhands : (Call.pingLoop l).hands = pingHands p.pings := by rw [Call.hands, hpass]
    rw [hhands]
    exact carries_releasePings hps
  | _ => cases h

theorem handsOver_release (s : SessionId) (o : WriteOutcome) :
    HandsOver r (r.release s o).1 := by
  unfold release
  dsimp only
  split
  · rename_i run' hworker
    split at hworker
    · rename_i run hrun
      obtain ⟨x, hx, hxw⟩ := Option.map_eq_some_iff.mp hrun
      obtain ⟨hframe, -, hw⟩ := release?_some hworker
      have hgoes : Carries r {.busy .live s run} r {.busy .live s run'} :=
        .of_hand fun _ => .goOn .live run run' (release?_kind hworker) hframe hw
      apply HandsOver.of_worksOff hx
      rw [hxw]
      exact ⟨r, .delivering run', hgoes, rfl⟩
    · cases hworker
  · split
    · rename_i cs hcalls
      obtain ⟨i, c, c', hc, rfl, hcall⟩ := releaseCalls?_some hcalls
      exact .of_callGoesOn hc ⟨r, c', carries_releaseCall hcall, rfl⟩
    · exact .refl r

/-! ### Calls that are made -/

/-- A worker that is started has nothing in hand, as one that is absent. -/
theorem hands_activate {P : Party → Post} {log : List WriteMark}
    (h : Lane.Lawful T ⟨x, P, log⟩) :
    WorkerPoint.hands s x.activate.1.worker = WorkerPoint.hands s x.worker := by
  cases hs : x.stage with
  | active => simp only [Session.activate, hs]
  | removed => simp only [Session.activate, hs]
  | registered =>
    have habsent : x.worker = .absent := h.worker_of_stage.1 hs
    simp only [Session.activate, hs]
    split
    · rw [habsent]
      rfl
    · rfl

theorem handsOver_activate (hr : Settled T r) (s : SessionId) : HandsOver r (r.activate s).1 := by
  cases hx : r.session? s with
  | none =>
    have hsame : (r.activate s).1 = r := by simp only [activate, hx]
    rw [hsame]
    exact .refl r
  | some x =>
    have hput : HandsOver r (r.update s fun _ => x.activate.1) := by
      obtain ⟨stage, started, unjoined, worker, hx'⟩ := x.exists_activate_eq
      have hgoods : x.SameGoods { x.activate.1 with worker := x.worker } := by
        rw [hx']
        exact ⟨rfl, rfl, rfl, rfl, rfl, rfl⟩
      have htouch := (Carries.refl r (WorkerPoint.hands s x.worker)).touch hx hgoods
      rw [← hands_activate (hr.sound.lawful s x hx)] at htouch
      have hstart : (r.update s fun _ => x.activate.1) =
          (r.put s { x.activate.1 with worker := x.worker } []).setWorker s
            x.activate.1.worker := by
        rw [setWorker, update_eq_put (session?_put_self hx _ _), put_put, update_eq_put hx]
        rfl
      apply HandsOver.of_worksOff hx
      rw [← hands_activate (hr.sound.lawful s x hx)]
      exact ⟨_, _, htouch, hstart⟩
    unfold activate
    rw [hx]
    dsimp only
    rcases hactivate : x.activate with ⟨y, started⟩
    rw [hactivate] at hput
    cases started with
    | true => exact hput.trans (.of_carries ((Carries.refl _ 0).note id))
    | false => exact hput

theorem handsOver_subscribe (request : Subscription) : HandsOver r (r.subscribe request) := by
  unfold subscribe
  split
  · exact .addCall r rfl
  · have hnoted : HandsOver r (r.note (.beforeRegistered request.peer request.keys)) :=
      .of_carries ((Carries.refl r 0).note id)
    exact hnoted.trans (.addCall _ rfl)

theorem handsOver_publishHistorical (b : Batch Nat) : HandsOver r (r.publishHistorical b) := by
  apply HandsOver.startCall
  exact callGoesOn_settleCall (carries_nextBackfill 0 _) fun _ => rfl

theorem handsOver_sweep : HandsOver r r.sweep := by
  apply HandsOver.startCall
  exact callGoesOn_settleCall (carries_nextSweep 0 _) fun _ => rfl

theorem handsOver_ping : HandsOver r r.ping := by
  apply HandsOver.startCall
  exact callGoesOn_settleCall (carries_beginPings .pinging fun _ => rfl) fun _ => rfl

theorem handsOver_sendHistorical (s : SessionId) (b : Batch Nat) :
    HandsOver r (r.sendHistorical s b) := by
  apply HandsOver.startCall
  split
  · exact .idle (.refl _ 0) rfl
  · rename_i hcancelled
    split
    · rename_i w hgate
      have hjoin : Carries (r.addCall .crashed) 0 w {.line .historical .historical s b} :=
        carries_askGate hgate DeliveryKind.noConfusion (Bool.eq_false_iff.mpr hcancelled)
          DeliveryKind.noConfusion
      exact ⟨w, .sending { session := s, batch := b, kind := .historical }, hjoin, rfl⟩
    · rename_i w hgate
      obtain rfl := askGate_of_closed hgate
      exact callGoesOn_sent (.refl _ 0)

theorem contents_of_detached {reason : RemovalReason} (h : r.detach s reason = (v, true)) :
    ∀ y, v.session? s = some y → y.queue.heap.contents = 0 := by
  intro y hy
  rcases r.present_or_gone s with ⟨x, hx, hstage⟩ | hgone
  · obtain ⟨es, -, hdetach⟩ := detach_eq hx hstage reason
    rw [hdetach] at h
    obtain rfl := (Prod.mk.inj h).1
    obtain rfl := Option.some.inj ((session?_put_self hx x.remove es).symm.trans hy)
    exact Heap.contents_withCapacity _
  · rw [detach_of_removed hgone] at h
    cases h

theorem handsOver_unsubscribe (s : SessionId) : HandsOver r (r.unsubscribe s) := by
  apply HandsOver.startCall
  have hleft := carries_detach (s := s) (Carries.refl (r.addCall .crashed) 0) .unsubscribed
  split
  · rename_i w hdetach
    rw [hdetach] at hleft
    exact .idle hleft rfl
  · rename_i w hdetach
    rw [hdetach] at hleft
    have hempty := contents_of_detached hdetach
    obtain ⟨u, c, hu, heq⟩ := callGoesOn_unsubscribeProgress (i := r.calls.length)
      (carries_farewellStep .fresh hempty)
    exact ⟨u, c, hleft.trans hu, heq⟩

theorem handsOver_stop : HandsOver r r.stop := by
  unfold stop
  split
  · exact .addCall r rfl
  · have hevacuate : Carries r 0 r.evacuate.1 0 := carries_evacuate
    dsimp only
    have hcounted := hevacuate.count (Metrics.aside_shutdown r.evacuate.2.length)
    refine ((HandsOver.of_carries hcounted).trans (.addCall _ rfl)).trans (.addCalls ?_)
    intro c hc
    obtain ⟨s, _, rfl⟩ := List.mem_map.mp hc
    rfl

theorem handsOver_drop : HandsOver r r.drop := by
  unfold drop
  split
  · exact .refl r
  · exact .of_carries (carries_evacuate.note id)

theorem handsOver_tick (i : Nat) : HandsOver r (r.tick i) := by
  unfold tick
  split
  · rename_i l hc
    split
    · exact .of_callGoesOn hc (callGoesOn_sweepTick l)
    · exact .refl r
  · rename_i l hc
    split
    · rename_i hdue
      -- a loop that begins a pass has none under way
      have hidle := Option.isNone_iff_eq_none.mp (Bool.and_eq_true_iff.mp hdue).1
      apply HandsOver.of_callGoesOn hc
      rw [hands_pingLoop_of_idle hidle]
      exact callGoesOn_pingTick l
    · exact .refl r
  · exact .refl r

theorem handsOver_receive (s : SessionId) : HandsOver r (((r.receive? s).map (·.2)).getD r) := by
  unfold receive?
  split
  · rename_i k hk
    cases k.receive? with
    | none => exact .refl r
    | some received => exact .of_carries ((Carries.refl r 0).sink fun _ => .channel received.2)
  · exact .refl r

theorem handsOver_dropReceiver (s : SessionId) : HandsOver r (r.dropReceiver s) := by
  apply HandsOver.of_carries
  unfold dropReceiver
  refine (Carries.refl r 0).update fun x _ => ?_
  split
  · exact ⟨rfl, rfl, rfl, rfl, rfl, rfl⟩
  · exact .refl x

/-! ### Every action -/

theorem handsOver_apply (hr : Settled T r) (action : Action) : HandsOver r (r.apply action) := by
  cases action with
  | run t =>
    show HandsOver r (if r.ready t then r.step t else r)
    split
    · exact handsOver_step hr t
    · exact .refl r
  | tick i => exact handsOver_tick i
  | elapse ms =>
    exact Relation.ReflTransGen.single
      (.beside r.calls (r.now + ms) r.cancelledTokens fun _ => id)
  | subscribe request => exact handsOver_subscribe request
  | activate s => exact handsOver_activate hr s
  | publishLive b => exact .of_carries carries_publishLive
  | publishHistorical b => exact handsOver_publishHistorical b
  | sendHistorical s b => exact handsOver_sendHistorical s b
  | unsubscribe s => exact handsOver_unsubscribe s
  | sweep => exact handsOver_sweep
  | ping => exact handsOver_ping
  | stop => exact handsOver_stop
  | drop => exact handsOver_drop
  | cancel token =>
    exact Relation.ReflTransGen.single (.beside r.calls r.now (token :: r.cancelledTokens)
      fun _ => List.mem_cons_of_mem token)
  | release s o => exact handsOver_release s o
  | receive s => exact handsOver_receive s
  | dropReceiver s => exact handsOver_dropReceiver s
  | awaitRemoval s => exact .addCall r rfl

theorem handsOver_run {config : Config} {hooks : Hooks}
    (hr : Settled (.any config hooks True) r) (actions : List Action) :
    HandsOver r (r.run actions) := by
  induction actions generalizing r with
  | nil => exact .refl r
  | cons action rest ih =>
    have hnext : Settled (.any config hooks True) (r.apply action) :=
      (reaches_apply hr action.keeps_any).settled
    exact (handsOver_apply hr action).trans (ih hnext)

/-- The loops of a new registry are idle, so that nothing is in hand. -/
theorem hands_new (config : Config) (hooks : Hooks) : (new config hooks).hands = 0 := by
  have hworkers : (new config hooks).workerHands.sum = 0 := by
    rw [workerHands, (new_blank config hooks).1]
    rfl
  have hcalls : ((new config hooks).calls.map Call.hands).sum = 0 := by
    rw [(new_idle config hooks).2.2.2]
    apply List.sum_eq_zero
    intro G hG
    obtain ⟨c, hc, rfl⟩ := List.mem_map.mp hG
    obtain ⟨period, rfl⟩ | ⟨period, rfl⟩ := mem_loops hc
    · rfl
    · rfl
  rw [hands, hworkers, hcalls, add_zero]

theorem handsOver_new_run (config : Config) (hooks : Hooks) (actions : List Action) :
    Transfers ⟨new config hooks, 0⟩
      ⟨(new config hooks).run actions, ((new config hooks).run actions).hands⟩ := by
  have hover := handsOver_run (settled_new (T := .any config hooks True) rfl rfl) actions
  rw [HandsOver, hands_new] at hover
  exact hover

end Registry

end Multicast
