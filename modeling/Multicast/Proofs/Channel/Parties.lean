import Multicast.Proofs.Channel.Rounds
import Multicast.Proofs.Registry.CallList

/-! Workers and calls as a channel has them. A task that goes on lets at most one write to the
subscriber go on, which is its own; and only a round of pings that crashes gives a write up. -/

namespace Multicast

open Outlet (Flow GivesUp)

/-- What is left behind when the worker has come to another write, or to none. -/
def Outlet.withWriter (o : Outlet) (w : Option Delivery) : Outlet := { o with writer := w }

/-- The write to a subscriber that a call has under way. -/
def Call.write? (c : Call) (s : SessionId) : Option Delivery := directWrite? c.directs s

/-- Whether a call goes through rounds of pings. -/
def Call.IsRound : Call → Prop
  | .pinging _ | .pingLoop _ => True
  | _ => False

/-- Direct deliveries of which none has begun. -/
def Unbegun (ds : List Direct) : Prop := ∀ d ∈ ds, d.delivery = none

/-- The write to a subscriber that a single direct delivery has under way when it has gone on. -/
def Progress.write? (o : Progress Direct Bool) (s : SessionId) : Option Delivery :=
  match o with
  | .running d => directWrite? [d] s
  | .done _ | .crashed => none

namespace Registry

variable {r u v : Registry} {s : SessionId} {x : Session} {p : Party} {b : Batch Nat} {e : Direct}
  {k : Channel (Batch Nat)} {i : Nat} {c : Call}

theorem directWrite?_single : directWrite? [e] e.session = e.post.write? := by
  rw [directWrite?, postsOf, overlay, Function.update_self]

theorem directWrite?_single_of_ne (he : e.session ≠ s) : directWrite? [e] s = none := by
  rw [directWrite?, postsOf, overlay, Function.update_of_ne (Ne.symm he)]
  rfl

/-- What has not begun writes nothing. -/
theorem directWrite?_of_unbegun {ds : List Direct} (h : Unbegun ds) : directWrite? ds s = none := by
  rw [directWrite?, postsOf_eq_find?]
  cases hfind : ds.find? (·.session == s) with
  | none => rfl
  | some d =>
    have hd : d.delivery = none := h d (List.mem_of_find?_eq_some hfind)
    rw [Option.map_some, Option.getD_some, Direct.post, hd]
    rfl

theorem unbegun_single (he : e.delivery = none) : Unbegun [e] := by
  intro d hd
  obtain rfl := List.mem_singleton.mp hd
  exact he

/-! ### Workers -/

theorem outlet_setWorker_self (hx : r.session? s = some x) (w : WorkerPoint Delivery) :
    (r.setWorker s w).outlet s = (r.outlet s).withWriter w.write? := by
  have hset : (r.setWorker s w).session? s = some { x with worker := w } := session?_update hx _
  rw [outlet_of_session? hset, outlet_of_session? hx]
  rfl

theorem session?_updateQueue (hx : r.session? s = some x) (f : Queue Nat → Queue Nat) :
    (r.updateQueue s f).session? s = some { x with queue := f x.queue } := session?_update hx _

/-- At the head of its loop a worker writes nothing. -/
theorem outlet_workerTurn_self (hx : r.session? s = some x) :
    (r.workerTurn s).outlet s = (r.outlet s).withWriter none := by
  unfold workerTurn
  rw [hx]
  dsimp only
  split
  · rename_i q _
    have hqueued : (r.updateQueue s fun _ => q).outlet s = r.outlet s := outlet_updateQueue _
    rw [outlet_setWorker_self (session?_updateQueue hx _), hqueued]
    rfl
  · exact (outlet_note rfl rfl).trans (outlet_setWorker_self hx _)

theorem outlet_workerProgress {o : Registry × Progress Delivery DeliveryOutcome}
    (hx : o.1.session? s = some x) :
    (workerProgress s o).outlet s = (o.1.outlet s).withWriter o.2.post.write? := by
  obtain ⟨w, progress⟩ := o
  have hleft : (w.leave s .worker).outlet s = w.outlet s := outlet_leave
  have hxLeft : (w.leave s .worker).session? s =
      some { x with queue := x.queue.leave .worker } := session?_updateQueue hx _
  cases progress with
  | running run => exact outlet_setWorker_self hx _
  | done _ => exact (outlet_workerTurn_self hxLeft).trans (congrArg (·.withWriter none) hleft)
  | crashed => exact (outlet_setWorker_self hxLeft _).trans (congrArg (·.withWriter none) hleft)

end Registry

/-- To write to a channel neither takes it away nor changes what the worker does. -/
theorem Outlet.Flow.keeps {p : Party} {o o' : Outlet} {w w' : Option Delivery}
    {k : Channel (Batch Nat)} {processed : Batch Nat → Prop} (h : Flow processed p o w o' w')
    (hk : o.sink = some (.channel k)) :
    o'.writer = o.writer ∧ ∃ k', o'.sink = some (.channel k') := by
  cases h with
  | still => exact ⟨rfl, k, hk⟩
  | begin | send | refuse => exact ⟨rfl, _, rfl⟩

namespace Registry

variable {r u v : Registry} {s : SessionId} {x : Session} {p : Party} {b : Batch Nat} {e : Direct}
  {k : Channel (Batch Nat)} {i : Nat} {c : Call} {round : Prop}

/-- How a worker goes on. -/
theorem flow_workerStep (hk : (r.outlet s).sink = some (.channel k))
    (hsending : Sending (r.outlet s).writer) (hready : r.workerReady s = true) :
    ∃ o', Flow r.Processed .worker (r.outlet s) (r.outlet s).writer o'
        ((r.workerStep s).outlet s).writer ∧
      (r.workerStep s).outlet s = o'.withWriter ((r.workerStep s).outlet s).writer := by
  obtain ⟨x, hx, hxk⟩ := exists_of_sink hk
  have hwriter : (r.outlet s).writer = x.worker.write? := by rw [outlet_of_session? hx]
  have hstill {v : Registry} (hw : (r.outlet s).writer = none)
      (hv : v.outlet s = (r.outlet s).withWriter none) :
      ∃ o', Flow r.Processed .worker (r.outlet s) (r.outlet s).writer o' (v.outlet s).writer ∧
        v.outlet s = o'.withWriter (v.outlet s).writer := by
    rw [hv, hw]
    exact ⟨r.outlet s, .still none, rfl⟩
  have hgoes {u : Registry} {o : Registry × Progress Delivery DeliveryOutcome}
      (hu : u.outlet s = r.outlet s)
      (hflow : Flow r.Processed .worker (u.outlet s) (r.outlet s).writer (o.1.outlet s)
        o.2.post.write?) :
      ∃ o', Flow r.Processed .worker (r.outlet s) (r.outlet s).writer o'
          ((workerProgress s o).outlet s).writer ∧
        (workerProgress s o).outlet s =
          o'.withWriter ((workerProgress s o).outlet s).writer := by
    rw [hu] at hflow
    obtain ⟨-, k', hk'⟩ := hflow.keeps hk
    obtain ⟨y, hy, -⟩ := exists_of_sink hk'
    rw [outlet_workerProgress hy]
    exact ⟨o.1.outlet s, hflow, rfl⟩
  unfold workerStep
  rw [hx]
  dsimp only
  cases hw : x.worker with
  | fresh =>
    have hidle : (r.outlet s).writer = none := by rw [hwriter, hw]; rfl
    have hnoted : (r.note (.workerStarted (r.nameOf s))).session? s = some x := hx
    exact hstill hidle ((outlet_workerTurn_self hnoted).trans (by rw [outlet_note rfl rfl]))
  | inLine =>
    have hidle : (r.outlet s).writer = none := by rw [hwriter, hw]; rfl
    dsimp only
    split
    · rename_i q b _
      have hqueued : (r.updateQueue s fun _ => q).outlet s = r.outlet s := outlet_updateQueue _
      have hxq := session?_update hx fun x => { x with queue := q }
      refine hgoes hqueued ?_
      rw [hidle]
      exact flow_beginDelivery hxq hxk
    · rename_i q _
      have hqueued : (r.updateQueue s fun _ => q).outlet s = r.outlet s := outlet_updateQueue _
      refine hstill hidle ((outlet_setWorker_self (session?_updateQueue hx _) _).trans ?_)
      rw [hqueued]
      rfl
  | delivering run =>
    have hbusy : (r.outlet s).writer = (Post.busy run).write? := by rw [hwriter, hw]; rfl
    refine hgoes (u := r) rfl ?_
    rw [hbusy] at hsending ⊢
    refine flow_deliveryStep hx hxk hsending ?_
    unfold workerReady at hready
    rw [hx] at hready
    simpa [Queue.workerReady, hw] using hready
  | asleep =>
    have hidle : (r.outlet s).writer = none := by rw [hwriter, hw]; rfl
    dsimp only
    split
    · exact hstill hidle ((outlet_note rfl rfl).trans (outlet_setWorker_self hx _))
    · have hqueued : (r.updateQueue s fun q => { q with signal := q.signal.resume }).outlet s =
          r.outlet s := outlet_updateQueue _
      refine hstill hidle ((outlet_workerTurn_self (session?_updateQueue hx _)).trans ?_)
      rw [hqueued]
  | absent | stopped | crashed =>
    have hidle : (r.outlet s).writer = none := by rw [hwriter, hw]; rfl
    refine hstill hidle ?_
    rw [← hidle]
    rfl

/-! ### Calls that deliver -/

/-- A single direct delivery goes on, to whichever subscriber. -/
theorem flow_direct (hk : (r.outlet s).sink = some (.channel k))
    (hsending : Sending (directWrite? [e] s)) (hready : r.directReady p e = true) :
    Flow r.Processed p (r.outlet s) (directWrite? [e] s) ((r.directStep p e).1.outlet s)
      ((r.directStep p e).2.write? s) := by
  have hsession (e' : Direct) : (r.directStep p e).2 = .running e' → e'.session = e.session :=
    session_of_directStep
  by_cases he : e.session = s
  · subst he
    obtain ⟨x, hx, hxk⟩ := exists_of_sink hk
    rw [directWrite?_single] at hsending ⊢
    have hflow := flow_directStep hx hxk hsending hready
    have hpost : (r.directStep p e).2.write? e.session =
        (r.directStep p e).2.directPost.write? := by
      cases hprogress : (r.directStep p e).2 with
      | running e' =>
        rw [← hsession e' hprogress]
        exact directWrite?_single
      | done _ | crashed => rfl
    rwa [hpost]
  · have hnone : (r.directStep p e).2.write? s = none := by
      cases hprogress : (r.directStep p e).2 with
      | running e' =>
        have he' : e'.session ≠ s := hsession e' hprogress ▸ he
        exact directWrite?_single_of_ne he'
      | done _ | crashed => rfl
    rw [directWrite?_single_of_ne he, hnone, outlet_directStep_of_ne he]
    exact .still none

/-- A call goes on, as the channel of a subscriber has it: a write goes on, or it is given up and
the call, which is a round of pings, has crashed. -/
def CallFlows (round : Prop) (s : SessionId) (r : Registry) (i : Nat) (w : Option Delivery)
    (v : Registry) : Prop :=
  ∃ (u : Registry) (c : Call), v = u.setCall i c ∧
    (Flow r.Processed (.call i) (r.outlet s) w (u.outlet s) (c.write? s) ∨
      GivesUp (.call i) (r.outlet s) w (u.outlet s) ∧ c = .crashed ∧ round)

/-- A call that writes nothing before or after leaves the channel alone. -/
theorem CallFlows.quiet (hu : u.outlet s = r.outlet s) (hc : c.write? s = none) :
    CallFlows round s r i none (u.setCall i c) := by
  refine ⟨u, c, rfl, .inl ?_⟩
  rw [hu, hc]
  exact .still none

theorem CallFlows.settleCall {σ α : Type} {wrap : σ → Call} {answer : α → Call}
    {w : Option Delivery} {o : Registry × Progress σ α}
    (hanswer : ∀ a, (answer a).write? s = none)
    (h : Flow r.Processed (.call i) (r.outlet s) w (o.1.outlet s) (o.2.postsBy wrap s).write? ∨
      GivesUp (.call i) (r.outlet s) w (o.1.outlet s) ∧ o.2 = .crashed ∧ round) :
    CallFlows round s r i w (settleCall i wrap answer o) := by
  obtain ⟨u, progress⟩ := o
  cases progress with
  | running st => exact ⟨u, wrap st, rfl, .inl (h.resolve_right fun hcrash => nomatch hcrash.2.1)⟩
  | done a =>
    refine ⟨u, answer a, rfl, .inl ?_⟩
    rw [hanswer]
    exact h.resolve_right fun hcrash => nomatch hcrash.2.1
  | crashed => exact ⟨u, .crashed, rfl, h.imp_right fun hcrash => ⟨hcrash.1, rfl, hcrash.2.2⟩⟩

/-- The delivery to which a backfill goes on has not begun. -/
theorem write?_nextBackfill {attempted : Nat} {ss : List SessionId} :
    ((r.nextBackfill p b attempted ss).2.postsBy .backfilling s).write? = none := by
  induction ss with
  | nil => rfl
  | cons t rest ih =>
    rw [nextBackfill]
    split
    · exact ih
    · split
      · exact directWrite?_of_unbegun (unbegun_single rfl)
      · exact ih

theorem callFlows_backfill {f : Backfill} (hk : (r.outlet s).sink = some (.channel k))
    (hsending : Sending ((Call.backfilling f).write? s))
    (hready : r.directReady (.call i) f.current = true) :
    CallFlows round s r i ((Call.backfilling f).write? s)
      (settleCall i .backfilling returnedCount (r.backfillStep (.call i) f)) := by
  refine .settleCall (fun _ => rfl) (.inl ?_)
  have hflow := flow_direct hk hsending hready
  obtain ⟨u, progress, hstep⟩ : ∃ u progress, r.directStep (.call i) f.current = (u, progress) :=
    ⟨_, _, rfl⟩
  unfold backfillStep
  rw [hstep] at hflow ⊢
  cases progress with
  | running e => exact hflow
  | done reached =>
    dsimp only
    rw [outlet_nextBackfill, write?_nextBackfill]
    exact hflow
  | crashed => exact hflow

theorem callFlows_send (hk : (r.outlet s).sink = some (.channel k))
    (hsending : Sending ((Call.sending e).write? s)) (hready : r.directReady (.call i) e = true) :
    CallFlows round s r i ((Call.sending e).write? s) (sent i (r.directStep (.call i) e)) := by
  have hflow := flow_direct hk hsending hready
  obtain ⟨u, progress, hstep⟩ : ∃ u progress, r.directStep (.call i) e = (u, progress) :=
    ⟨_, _, rfl⟩
  rw [hstep] at hflow ⊢
  cases progress with
  | running e' => exact ⟨u, .sending e', rfl, .inl hflow⟩
  | done reached => exact ⟨_, _, rfl, .inl hflow⟩
  | crashed => exact ⟨u, .crashed, rfl, .inl hflow⟩

/-! ### Rounds of pings -/

variable {wrap : PingPass → Call} {pass : PingPass}

theorem write?_closePings (hwrap : ∀ pass, (wrap pass).directs = pingDirects pass.pings)
    {ps : List PingPoint} :
    ((r.closePings ps).2.postsBy wrap s).write? = directWrite? (pingDirects ps) s := by
  unfold closePings
  cases hanswers : pingAnswers? ps with
  | none => rw [Progress.postsBy, hwrap, directWrite?]
  | some answers =>
    rw [pingDirects_of_answers hanswers]
    rfl

theorem flow_pingStep (hpings : round)
    (hwrap : ∀ pass, (wrap pass).directs = pingDirects pass.pings)
    (hk : (r.outlet s).sink = some (.channel k))
    (hn : ((pingDirects pass.pings).map Direct.session).Nodup)
    (hsending : Sending (directWrite? (pingDirects pass.pings) s)) :
    Flow r.Processed p (r.outlet s) (directWrite? (pingDirects pass.pings) s)
        ((r.pingStep p pass).1.outlet s) ((r.pingStep p pass).2.postsBy wrap s).write? ∨
      GivesUp p (r.outlet s) (directWrite? (pingDirects pass.pings) s)
        ((r.pingStep p pass).1.outlet s) ∧ (r.pingStep p pass).2 = .crashed ∧ round := by
  have hround := roundFlows_stepPings (p := p) hk hn hsending
  obtain ⟨u, ps, hstep⟩ : ∃ u ps, r.stepPings p pass.pings = (u, ps) := ⟨_, _, rfl⟩
  unfold pingStep
  rw [hstep] at hround ⊢
  cases ps with
  | some ps =>
    dsimp only
    rw [outlet_closePings, write?_closePings hwrap]
    exact .inl hround
  | none => exact .inr ⟨hround, rfl, hpings⟩

/-- The pings with which a round begins have not begun. -/
theorem unbegun_askPings {ss : List SessionId} : Unbegun (pingDirects (r.askPings p ss).2) := by
  induction ss generalizing r with
  | nil => nofun
  | cons t rest ih =>
    rw [askPings]
    dsimp only
    split
    · rw [pingDirects_waiting]
      intro d hd
      rcases List.mem_cons.mp hd with rfl | hd
      · rfl
      · exact ih d hd
    · exact ih

theorem write?_beginPings (hwrap : ∀ pass, (wrap pass).directs = pingDirects pass.pings) :
    ((r.beginPings p).2.postsBy wrap s).write? = none :=
  (write?_closePings hwrap).trans (directWrite?_of_unbegun unbegun_askPings)

/-- Where the ping loop comes to with a round. -/
theorem CallFlows.pingLoopProgress {l : Loop PingPass} {w : Option Delivery}
    {o : Registry × Progress PingPass Nat}
    (h : Flow r.Processed (.call i) (r.outlet s) w (o.1.outlet s)
        (o.2.postsBy (fun pass => .pingLoop { l with pass := some pass }) s).write? ∨
      GivesUp (.call i) (r.outlet s) w (o.1.outlet s) ∧ o.2 = .crashed ∧ round) :
    CallFlows round s r i w (pingLoopProgress i l o) := by
  obtain ⟨u, progress⟩ := o
  cases progress with
  | running pass => exact ⟨u, _, rfl, .inl (h.resolve_right fun hcrash => nomatch hcrash.2.1)⟩
  | done n =>
    refine ⟨u.note (.pingPassFinished n), _, rfl, .inl ?_⟩
    rw [outlet_note rfl rfl]
    exact h.resolve_right fun hcrash => nomatch hcrash.2.1
  | crashed => exact ⟨u, .crashed, rfl, h.imp_right fun hcrash => ⟨hcrash.1, rfl, hcrash.2.2⟩⟩

theorem callFlows_pingTick (l : Loop PingPass) : CallFlows round s r i none (r.pingTick i l) := by
  refine .pingLoopProgress (.inl ?_)
  rw [outlet_beginPings, write?_beginPings fun _ => rfl]
  exact .still none

/-! ### Every call -/

/-- What comes of taking leave. -/
theorem CallFlows.farewell {s' : SessionId}
    {o : Registry × Progress Farewell (Except HookError Unit)} (ho : o.1.outlet s = r.outlet s) :
    CallFlows round s r i none (farewellProgress i s' o) := by
  obtain ⟨u, progress⟩ := o
  cases progress with
  | running _ | crashed => exact .quiet ho rfl
  | done result =>
    exact .quiet ((outlet_noteReturn (fun _ _ => rfl) (fun _ _ => rfl) result).trans ho) rfl

theorem CallFlows.unsubscribe {s' : SessionId}
    {o : Registry × Progress Farewell (Except HookError Unit)} (ho : o.1.outlet s = r.outlet s) :
    CallFlows round s r i none (unsubscribeProgress i s' o) := by
  obtain ⟨u, progress⟩ := o
  cases progress with
  | running _ | crashed => exact .quiet ho rfl
  | done result =>
    cases result with
    | ok _ | error _ => exact .quiet ((outlet_note rfl rfl).trans ho) rfl

theorem callFlows_stopStep (stop : StopPoint) : CallFlows round s r i none (r.stopStep i stop) := by
  have hnoted := outlet_noteCrashes (r := r) (s := s) (stop.waiting.filter r.isOver)
  unfold stopStep
  dsimp only
  split
  · exact .quiet ((outlet_note rfl rfl).trans hnoted) rfl
  · split
    · exact .quiet ((outlet_note rfl rfl).trans hnoted) rfl
    · exact .quiet hnoted rfl

theorem callFlows_subscribeStep (hx : r.session? s = some x) (request : Subscription)
    (hook : HookRun) : CallFlows round s r i none (r.subscribeStep i request hook) := by
  unfold subscribeStep
  split
  · exact .quiet rfl rfl
  · exact .quiet rfl rfl
  · exact .quiet rfl rfl
  · split
    · exact .quiet rfl rfl
    · exact .quiet (outlet_enrol hx) rfl

theorem CallFlows.sweep {o : Registry × Progress SweepPass Nat}
    (ho : o.1.outlet s = r.outlet s) :
    CallFlows round s r i none (Registry.settleCall i .sweeping returnedCount o) := by
  obtain ⟨u, progress⟩ := o
  cases progress <;> exact .quiet ho rfl

theorem CallFlows.sweepLoop {l : Loop SweepPass} {o : Registry × Progress SweepPass Nat}
    (ho : o.1.outlet s = r.outlet s) : CallFlows round s r i none (sweepLoopProgress i l o) := by
  obtain ⟨u, progress⟩ := o
  cases progress <;> exact .quiet ho rfl

theorem callFlows_sweepTick (l : Loop SweepPass) : CallFlows round s r i none (r.sweepTick i l) :=
  .sweepLoop (outlet_nextSweep _ _)

theorem callFlows_sweepLoopStep (l : Loop SweepPass) :
    CallFlows round s r i none (r.sweepLoopStep i l) := by
  unfold sweepLoopStep
  split
  · exact .sweepLoop (outlet_sweepStep _)
  · split
    · exact .quiet (outlet_note rfl rfl) rfl
    · exact callFlows_sweepTick l

theorem callFlows_pingLoopStep (hround : round) (l : Loop PingPass)
    (hk : (r.outlet s).sink = some (.channel k))
    (hn : ((Call.pingLoop l).directs.map Direct.session).Nodup)
    (hsending : Sending ((Call.pingLoop l).write? s)) :
    CallFlows round s r i ((Call.pingLoop l).write? s) (r.pingLoopStep i l) := by
  unfold pingLoopStep
  cases hpass : l.pass with
  | some pass =>
    have hdirects : (Call.pingLoop l).directs = pingDirects pass.pings := by
      simp only [Call.directs, hpass]
    have hwrite : (Call.pingLoop l).write? s = directWrite? (pingDirects pass.pings) s :=
      congrArg (directWrite? · s) hdirects
    rw [hdirects] at hn
    rw [hwrite] at hsending ⊢
    exact .pingLoopProgress (flow_pingStep hround (fun _ => rfl) hk hn hsending)
  | none =>
    have hwrite : (Call.pingLoop l).write? s = none := by
      simp only [Call.write?, Call.directs, hpass]
      rfl
    rw [hwrite]
    dsimp only
    split
    · exact .quiet (outlet_note rfl rfl) rfl
    · exact callFlows_pingTick l

/-- A call that need not wait goes on. -/
theorem callFlows_callStep (hk : (r.outlet s).sink = some (.channel k))
    (hn : (c.directs.map Direct.session).Nodup) (hsending : Sending (c.write? s))
    (hready : r.callReady i c = true) :
    CallFlows c.IsRound s r i (c.write? s) (r.callStep i c) := by
  obtain ⟨x, hx, -⟩ := exists_of_sink hk
  cases c with
  | subscribing request hook => exact callFlows_subscribeStep hx request hook
  | backfilling f => exact callFlows_backfill hk hsending hready
  | sending e => exact callFlows_send hk hsending hready
  | unsubscribing t f => exact .unsubscribe (outlet_farewellStep f)
  | farewell t f => exact .farewell (outlet_farewellStep f)
  | sweeping p => exact .sweep (outlet_sweepStep p)
  | pinging pass =>
    exact .settleCall (fun _ => rfl) (flow_pingStep trivial (fun _ => rfl) hk hn hsending)
  | stopping p => exact callFlows_stopStep p
  | awaitingRemoval t => exact .quiet rfl rfl
  | sweepLoop l => exact callFlows_sweepLoopStep l
  | pingLoop l => exact callFlows_pingLoopStep trivial l hk hn hsending
  | returned _ | crashed => cases hready

end Registry

end Multicast
