import Multicast.Proofs.Channel.Steps

/-! Writes to a channel whose receiver is gone. Such a write need not wait, and fails as soon as its
party goes on with it. -/

namespace Multicast

open Outlet (Flow)

/-- The task of a party that deals with a subscriber. -/
def Party.task (s : SessionId) : Party → Task
  | .worker => .worker s
  | .call i => .call i

/-- A write to a closed channel that has come to its end has failed. -/
theorem Outlet.Flow.failures {processed : Batch Nat → Prop} {p : Party} {o o' : Outlet}
    {d : Delivery} {k : Channel (Batch Nat)} (h : Flow processed p o (some d) o' none)
    (hk : o.sink = some (.channel k)) (hclosed : k.closed = true) :
    o'.failures = .closed :: o.failures := by
  cases h with
  | send hc hopen hroom =>
    obtain rfl := Sink.channel.inj (Option.some.inj (hk.symm.trans hc))
    exact absurd hclosed (Bool.eq_false_iff.mp hopen)
  | refuse => rfl

namespace Registry

variable {r : Registry} {s : SessionId} {x : Session} {p : Party} {b : Batch Nat} {d : Delivery}
  {e : Direct} {k : Channel (Batch Nat)} {i : Nat} {c : Call} {ps : List PingPoint}

/-! ### Where a write stands that has gone on -/

/-- A write to a channel that goes on is over. -/
theorem write?_deliveryStep (hx : r.session? s = some x) (hk : x.sink = .channel k)
    (hd : d.point = .writing .sending) : (r.deliveryStep s p d).2.post.write? = none := by
  unfold deliveryStep
  rw [hd, hx]
  dsimp only
  rw [hk, Sink.step]
  rcases k.send p d.frame with ⟨k', taken⟩
  cases taken with
  | true => rfl
  | false => exact write?_writeFailed

theorem deliveryReady_of_sending (hx : r.session? s = some x) (hk : x.sink = .channel k)
    (hd : d.point = .writing .sending) : r.deliveryReady s p d = k.mayGo p := by
  unfold deliveryReady
  rw [hd, hx]
  dsimp only
  rw [hk]
  rfl

theorem exists_of_write? {post : Post} (h : post.write? = some d) :
    post = .busy d ∧ d.isWriting = true := by
  cases post with
  | away | waiting => cases h
  | busy e =>
    obtain ⟨he, hsame⟩ := Option.ite_none_right_eq_some.mp h
    obtain rfl := Option.some.inj hsame
    exact ⟨rfl, he⟩

theorem delivery_of_write? (h : e.post.write? = some d) : e.delivery = some d := by
  obtain ⟨hbusy, -⟩ := exists_of_write? h
  unfold Direct.post at hbusy
  split at hbusy
  · next run hrun =>
    obtain rfl := Post.busy.inj hbusy
    exact hrun
  · cases hbusy

/-- Whoever writes with a direct delivery has one to the subscriber that is under way. -/
theorem exists_direct_of_write {ds : List Direct} (h : directWrite? ds s = some d) :
    ∃ e ∈ ds, e.session = s ∧ e.delivery = some d ∧ directWrite? [e] s = some d := by
  cases hfind : ds.find? (·.session == s) with
  | none =>
    rw [directWrite?, postsOf_eq_find?, hfind] at h
    cases h
  | some e =>
    rw [directWrite?, postsOf_eq_find?, hfind] at h
    have hbeq := List.find?_some hfind
    obtain rfl : e.session = s := eq_of_beq hbeq
    exact ⟨e, List.mem_of_find?_eq_some hfind, rfl, delivery_of_write? h,
      directWrite?_single.trans h⟩

theorem worker_of_write (hx : r.session? s = some x) (hwrite : r.writes s .worker = some d) :
    x.worker = .delivering d := by
  rw [writes, posts_worker hx] at hwrite
  obtain ⟨hbusy, -⟩ := exists_of_write? hwrite
  cases hw : x.worker with
  | delivering run =>
    rw [hw] at hbusy
    rw [Post.busy.inj hbusy]
  | _ =>
    rw [hw] at hbusy
    cases hbusy

theorem callReady_of_direct (he : e ∈ c.directs) (hready : r.directReady (.call i) e = true) :
    r.callReady i c = true := by
  have hround {pass : PingPass} (hmem : e ∈ pingDirects pass.pings) :
      r.pingsReady (.call i) pass = true := by
    obtain ⟨point, hpoint, hdirect⟩ := List.mem_filterMap.mp hmem
    refine List.any_eq_true.mpr ⟨point, hpoint, ?_⟩
    cases point with
    | waiting e' =>
      obtain rfl := Option.some.inj hdirect
      exact hready
    | answered _ => cases hdirect
  cases c with
  | backfilling f | sending f =>
    obtain rfl := List.mem_singleton.mp he
    exact hready
  | pinging pass => exact hround he
  | pingLoop l =>
    cases hpass : l.pass with
    | none =>
      simp only [Call.directs, hpass] at he
      cases he
    | some pass =>
      simp only [Call.directs, hpass] at he
      simp only [callReady, hpass]
      exact hround he
  | _ => cases he

/-- As soon as a write need not wait, its party has something to do. -/
theorem ready_of_deliveryReady (hx : r.session? s = some x) (hwrite : r.writes s p = some d)
    (hgo : r.deliveryReady s p d = true) : r.ready (p.task s) = true := by
  cases p with
  | worker =>
    show r.workerReady s = true
    simp only [workerReady, hx, worker_of_write hx hwrite, Queue.workerReady, hgo]
  | call i =>
    cases hc : r.calls[i]? with
    | none =>
      rw [writes_of_no_call hc] at hwrite
      cases hwrite
    | some c =>
      rw [writes_call hc] at hwrite
      obtain ⟨e, he, rfl, hrun, -⟩ := exists_direct_of_write hwrite
      simp only [Party.task, ready, hc]
      refine callReady_of_direct he ?_
      rw [directReady, hrun]
      exact hgo

/-- The write of a direct delivery fails as soon as the delivery goes on. -/
theorem refused_directStep (hk : (r.outlet s).sink = some (.channel k))
    (hd : d.point = .writing .sending) (hwrite : directWrite? [e] s = some d)
    (hclosed : k.closed = true) :
    r.directReady p e = true ∧ (r.directStep p e).1.failures s = .closed :: r.failures s ∧
      (r.directStep p e).2 ≠ .crashed := by
  obtain rfl : e.session = s := by
    by_contra hne
    rw [directWrite?_single_of_ne hne] at hwrite
    cases hwrite
  obtain ⟨x, hx, hxk⟩ := exists_of_sink hk
  rw [directWrite?_single] at hwrite
  have hrun := delivery_of_write? hwrite
  have hsending : Sending e.post.write? := by
    rw [hwrite]
    intro d' hd'
    obtain rfl := Option.some.inj hd'
    exact hd
  have hready : r.directReady p e = true := by
    rw [directReady, hrun]
    exact (deliveryReady_of_sending hx hxk hd).trans (Channel.mayGo_of_closed hclosed)
  have hover : (r.directStep p e).2.directPost.write? = none := by
    rw [directStep, hrun]
    exact write?_directProgress.trans (write?_deliveryStep hx hxk hd)
  have hflow := flow_directStep hx hxk hsending hready
  rw [hwrite, hover] at hflow
  refine ⟨hready, hflow.failures hk hclosed, fun hcrash => ?_⟩
  obtain ⟨hidle, -⟩ := crashed_directStep hx hxk hsending hcrash
  rw [hidle] at hwrite
  cases hwrite

/-! ### Tasks that go on -/

theorem sending_of_point (hd : d.point = .writing .sending) : Sending (some d) := by
  intro e he
  obtain rfl := Option.some.inj he
  exact hd

/-- The write of a worker fails as soon as the worker goes on. -/
theorem refused_workerStep (hk : (r.outlet s).sink = some (.channel k))
    (hd : d.point = .writing .sending) (hwrite : r.writes s .worker = some d)
    (hclosed : k.closed = true) :
    (r.workerStep s).failures s = .closed :: r.failures s := by
  obtain ⟨x, hx, hxk⟩ := exists_of_sink hk
  have hworker := worker_of_write hx hwrite
  have hgo : r.deliveryReady s .worker d = true :=
    (deliveryReady_of_sending hx hxk hd).trans (Channel.mayGo_of_closed hclosed)
  have hready : r.workerReady s = true := ready_of_deliveryReady hx hwrite hgo
  have hwriter : (r.outlet s).writer = some d := writes_worker.symm.trans hwrite
  obtain ⟨o, hflow, ho⟩ := flow_workerStep hk (hwriter ▸ sending_of_point hd) hready
  have hstep : r.workerStep s = workerProgress s (r.deliveryStep s .worker d) := by
    simp only [workerStep, hx, hworker]
  have hover : ((r.workerStep s).outlet s).writer = none := by
    have hbusy : (Post.busy d).write? = some d := by simp [Post.write?, Delivery.isWriting, hd]
    obtain ⟨-, k', hk'⟩ := (flow_deliveryStep (p := .worker) hx hxk
      (hbusy ▸ sending_of_point hd) hgo).keeps hk
    obtain ⟨y, hy, -⟩ := exists_of_sink hk'
    rw [hstep, outlet_workerProgress hy]
    exact write?_deliveryStep hx hxk hd
  rw [hwriter, hover] at hflow
  have hfailed := hflow.failures hk hclosed
  exact (congrArg Outlet.failures ho).trans hfailed

/-- Whether none of the deliveries that a call has before the one to the subscriber can go on. -/
def GoesFirst (r : Registry) (s : SessionId) (i : Nat) : Prop :=
  ∀ c before e after, r.calls[i]? = some c → c.directs = before ++ e :: after → e.session = s →
    ∀ d ∈ before, r.directReady (.call i) d = false

/-- The write of a ping fails as soon as its round goes on, unless another ping goes first. -/
theorem refused_stepPings (hk : (r.outlet s).sink = some (.channel k))
    (hd : d.point = .writing .sending) (hwrite : directWrite? (pingDirects ps) s = some d)
    (hclosed : k.closed = true)
    (hfirst : ∀ before e after, pingDirects ps = before ++ e :: after → e.session = s →
      ∀ d ∈ before, r.directReady p d = false) :
    ∃ v qs, r.stepPings p ps = (v, some qs) ∧ v.failures s = .closed :: r.failures s := by
  obtain ⟨e, hmem, hes, -, hsingle⟩ := exists_direct_of_write hwrite
  obtain ⟨hready, hfailures, hcrash⟩ := refused_directStep (p := p) hk hd hsingle hclosed
  rcases exists_first_ready r p ps with hwaits | ⟨before, e', after, rfl, hbefore, he'⟩
  · rw [hwaits e hmem] at hready
    cases hready
  -- the first ping that can go on is that one
  have hsame : e = e' := by
    rw [pingDirects_append, pingDirects_waiting] at hmem
    rcases List.mem_append.mp hmem with hmem | hmem
    · rw [hbefore e hmem] at hready
      cases hready
    · rcases List.mem_cons.mp hmem with heq | hmem
      · exact heq
      · obtain ⟨between, rest, hrest⟩ := List.append_of_mem hmem
        have hwaits := hfirst (pingDirects before ++ e' :: between) e rest (by
          rw [pingDirects_append, pingDirects_waiting, hrest, List.append_assoc]
          rfl) hes e' (List.mem_append_right _ List.mem_cons_self)
        rw [hwaits] at he'
        cases he'
  subst hsame
  obtain ⟨v, progress, hstep⟩ : ∃ v progress, r.directStep p e = (v, progress) := ⟨_, _, rfl⟩
  rw [stepPings_of_ready hbefore he', hstep]
  rw [hstep] at hfailures hcrash
  cases progress with
  | running e' => exact ⟨v, _, rfl, hfailures⟩
  | done answer => exact ⟨v, _, rfl, hfailures⟩
  | crashed => exact absurd rfl hcrash

theorem refused_pingStep {pass : PingPass} (hk : (r.outlet s).sink = some (.channel k))
    (hd : d.point = .writing .sending)
    (hwrite : directWrite? (pingDirects pass.pings) s = some d) (hclosed : k.closed = true)
    (hfirst : ∀ before e after, pingDirects pass.pings = before ++ e :: after → e.session = s →
      ∀ d ∈ before, r.directReady p d = false) :
    (r.pingStep p pass).1.failures s = .closed :: r.failures s := by
  obtain ⟨v, qs, hstep, hfailures⟩ := refused_stepPings hk hd hwrite hclosed hfirst
  have houtlet : (r.pingStep p pass).1.outlet s = v.outlet s := by
    rw [pingStep, hstep]
    exact outlet_closePings _
  exact (congrArg Outlet.failures houtlet).trans hfailures

/-- The write of a call fails as soon as the call goes on with it. -/
theorem refused_callStep (hk : (r.outlet s).sink = some (.channel k))
    (hd : d.point = .writing .sending) (hc : r.calls[i]? = some c) (hwrite : c.write? s = some d)
    (hclosed : k.closed = true) (hfirst : r.GoesFirst s i) :
    (r.callStep i c).failures s = .closed :: r.failures s := by
  have hround (pass : PingPass) (hdirects : c.directs = pingDirects pass.pings) :
      (r.pingStep (.call i) pass).1.failures s = .closed :: r.failures s := by
    rw [Call.write?, hdirects] at hwrite
    exact refused_pingStep hk hd hwrite hclosed fun before e after hsplit =>
      hfirst c before e after hc (hdirects.trans hsplit)
  cases c with
  | backfilling f =>
    obtain ⟨-, hfailures, -⟩ :=
      refused_directStep (p := .call i) (e := f.current) hk hd hwrite hclosed
    obtain ⟨u, progress, hstep⟩ : ∃ u progress, r.directStep (.call i) f.current = (u, progress) :=
      ⟨_, _, rfl⟩
    rw [hstep] at hfailures
    rw [callStep, backfillStep, hstep]
    cases progress with
    | running _ | crashed => exact hfailures
    | done reached =>
      dsimp only
      obtain ⟨c, hcall⟩ := exists_settleCall i .backfilling returnedCount
        (u.nextBackfill (.call i) f.batch (if reached then f.attempted + 1 else f.attempted) f.rest)
      rw [hcall]
      exact (congrArg Outlet.failures (outlet_nextBackfill _ _)).trans hfailures
  | sending e =>
    obtain ⟨-, hfailures, -⟩ := refused_directStep (p := .call i) hk hd hwrite hclosed
    obtain ⟨u, progress, hstep⟩ : ∃ u progress, r.directStep (.call i) e = (u, progress) :=
      ⟨_, _, rfl⟩
    rw [hstep] at hfailures
    rw [callStep, hstep]
    cases progress with
    | running _ | crashed | done _ => exact hfailures
  | pinging pass =>
    have hfailures := hround pass rfl
    obtain ⟨c, hcall⟩ := exists_settleCall i .pinging returnedCount (r.pingStep (.call i) pass)
    rw [callStep, hcall]
    exact hfailures
  | pingLoop l =>
    cases hpass : l.pass with
    | none =>
      simp only [Call.write?, Call.directs, hpass] at hwrite
      cases hwrite
    | some pass =>
      have hfailures := hround pass (by simp only [Call.directs, hpass])
      rw [callStep, pingLoopStep, hpass]
      dsimp only
      rcases hstep : r.pingStep (.call i) pass with ⟨v, progress⟩
      rw [hstep] at hfailures
      cases progress with
      | running _ | crashed => exact hfailures
      | done n =>
        have hnoted : (v.note (.pingPassFinished n)).outlet s = v.outlet s := outlet_note rfl rfl
        exact (congrArg Outlet.failures hnoted).trans hfailures
  | _ => cases hwrite

end Registry

end Multicast
