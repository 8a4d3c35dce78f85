import Multicast.Proofs.Channel.Parties
import Multicast.Proofs.Registry.LastWrite

/-! Whatever happens to a registry is a step of the channel of a subscriber, or leaves it alone. -/

namespace Multicast

open Function (update)
namespace Outlet

variable {p : Party} {o o' : Outlet} {writes : Party → Option Delivery} {w w' : Option Delivery}
  {t : Pipe} {c : Channel (Batch Nat)} {processed : Batch Nat → Prop}
  {crashes : Nat → Prop} {i n : Nat}

/-- The channel with the writes to it, if the sink is one. -/
def pipe? (o : Outlet) (writes : Party → Option Delivery) : Option Pipe :=
  match o.sink with
  | some (.channel c) => some ⟨c, writes, o.written, o.failures⟩
  | some (.scripted _) | none => none

theorem exists_of_pipe? (h : o.pipe? writes = some t) :
    ∃ c, o.sink = some (.channel c) ∧ t = ⟨c, writes, o.written, o.failures⟩ := by
  unfold pipe? at h
  split at h
  · next c hc => exact ⟨c, hc, (Option.some.inj h).symm⟩
  · cases h
  · cases h

theorem update_eq_of_none {f : Party → Option Delivery} (h : f p = w) : update f p w = f := by
  rw [← h, Function.update_eq_self]

/-- A party that goes on takes a step of the pipe, or leaves it alone. -/
theorem Flow.step (h : o.pipe? writes = some t) (hflow : Flow processed p o w o' w')
    (hp : writes p = w)
    (halone : ∀ d, w' = some d → ∀ q, q ≠ p → writes q = none) :
    ∃ t', o'.pipe? (update writes p w') = some t' ∧
      (t' = t ∨ t.Step processed crashes .deliver t') := by
  obtain ⟨c, hc, rfl⟩ := exists_of_pipe? h
  cases hflow with
  | still =>
    rw [update_eq_of_none hp]
    exact ⟨_, h, .inl rfl⟩
  | @begin c' d hc' hd hframe =>
    obtain rfl := Sink.channel.inj (Option.some.inj (hc.symm.trans hc'))
    refine ⟨_, rfl, .inr (.begin p d hd hframe fun q => ?_)⟩
    by_cases hq : q = p
    · rw [hq]
      exact hp
    · exact halone d rfl q hq
  | @send c' d hc' hopen hroom =>
    obtain rfl := Sink.channel.inj (Option.some.inj (hc.symm.trans hc'))
    exact ⟨_, rfl, .inr (.send p d hp hopen hroom)⟩
  | @refuse c' d hc' hclosed =>
    obtain rfl := Sink.channel.inj (Option.some.inj (hc.symm.trans hc'))
    exact ⟨_, rfl, .inr (.refuse p d hp hclosed)⟩

/-- Whoever gives a write up takes a step of the pipe; whoever has none leaves it alone. -/
theorem GivesUp.step (h : o.pipe? writes = some t) (ht : t.Tight n)
    (hgives : GivesUp (.call i) o w o') (hi : writes (.call i) = w) (hcrash : crashes i) :
    ∃ t', o'.pipe? (update writes (.call i) none) = some t' ∧
      (t' = t ∨ t.Step processed crashes .deliver t') := by
  obtain ⟨c, hc, rfl⟩ := exists_of_pipe? h
  cases hgives with
  | idle =>
    rw [update_eq_of_none hi]
    exact ⟨_, h, .inl rfl⟩
  | @giveUp c' w hc' =>
    obtain rfl := Sink.channel.inj (Option.some.inj (hc.symm.trans hc'))
    refine ⟨_, rfl, ?_⟩
    cases w with
    | some d => exact .inr (.giveUp i d hi hcrash)
    | none =>
      -- a call that writes nothing is no sender
      left
      have hsenders : c.senders.erase (.call i) = c.senders := by
        refine List.erase_of_not_mem fun hmem => ?_
        by_cases hidle : ∀ q, writes q = none
        · have hnone : c.senders = [] := ht.idle hidle
          rw [hnone] at hmem
          cases hmem
        · obtain ⟨q, hq⟩ := not_forall.mp hidle
          obtain ⟨d, hd⟩ := Option.ne_none_iff_exists'.mp hq
          have hsenders : c.senders = [q] := (ht.writes q d hd).2.1
          rw [hsenders, List.mem_singleton] at hmem
          rw [hmem, hd] at hi
          cases hi
      have hgiven : c.giveUp (.call i) = c := by rw [Channel.giveUp, hsenders]
      rw [hgiven, update_eq_of_none hi]

theorem GivesUp.writer (h : GivesUp p o w o') : o'.writer = o.writer := by
  cases h <;> rfl

end Outlet

open Outlet (Flow GivesUp)

namespace Registry

variable {T : Terms} {r u v : Registry} {s : SessionId} {x : Session} {p : Party} {i n : Nat}
  {c : Call} {k : Channel (Batch Nat)} {t t' : Pipe} {config : Config} {hooks : Hooks}

/-- The writes to a subscriber that the parties have under way. -/
def writes (r : Registry) (s : SessionId) (p : Party) : Option Delivery := (r.posts s p).write?

/-- The channel of a subscriber with the writes to it, if its sink is one. -/
def pipe? (r : Registry) (s : SessionId) : Option Pipe := (r.outlet s).pipe? (r.writes s)

/-! ### The writes that are under way -/

theorem writes_worker : r.writes s .worker = (r.outlet s).writer := by
  cases hx : r.session? s with
  | none => simp [writes, posts, outlet, hx, Post.write?]
  | some x =>
    rw [writes, posts_worker hx, outlet_of_session? hx]
    rfl

theorem writes_call (hc : r.calls[i]? = some c) : r.writes s (.call i) = c.write? s := by
  have hpost := congrFun (posts_call hc) s
  exact congrArg Post.write? hpost

theorem writes_of_no_call (hc : r.calls[i]? = none) : r.writes s (.call i) = none := by
  have hlength : r.calls.length ≤ i := List.getElem?_eq_none_iff.mp hc
  rw [writes, posts_of_no_call hlength]
  rfl

theorem writes_call_congr (hc : v.calls[i]? = r.calls[i]?) :
    v.writes s (.call i) = r.writes s (.call i) := by
  cases hr : r.calls[i]? with
  | none => rw [writes_of_no_call hr, writes_of_no_call (hc.trans hr)]
  | some c => rw [writes_call hr, writes_call (hc.trans hr)]

/-- What touches neither the outlet of a subscriber nor the calls leaves its channel alone. -/
theorem pipe?_congr (ho : v.outlet s = r.outlet s)
    (hc : ∀ i, v.writes s (.call i) = r.writes s (.call i)) : v.pipe? s = r.pipe? s := by
  have hwrites : v.writes s = r.writes s := by
    funext p
    cases p with
    | worker => rw [writes_worker, writes_worker, ho]
    | call i => exact hc i
  rw [pipe?, pipe?, ho, hwrites]

theorem pipe?_of_calls (ho : v.outlet s = r.outlet s) (hc : v.calls = r.calls) :
    v.pipe? s = r.pipe? s :=
  pipe?_congr ho fun i => writes_call_congr (by rw [hc])

/-- Calls that are added and write nothing. -/
theorem pipe?_of_append {cs : List Call} (ho : v.outlet s = r.outlet s)
    (hc : v.calls = r.calls ++ cs) (hcs : ∀ c ∈ cs, c.write? s = none) :
    v.pipe? s = r.pipe? s := by
  refine pipe?_congr ho fun i => ?_
  rcases Nat.lt_or_ge i r.calls.length with hlt | hge
  · exact writes_call_congr (by rw [hc, List.getElem?_append_left hlt])
  · rw [writes_of_no_call (List.getElem?_eq_none_iff.mpr hge)]
    cases hi : v.calls[i]? with
    | none => exact writes_of_no_call hi
    | some c =>
      rw [writes_call hi]
      rw [hc, List.getElem?_append_right hge] at hi
      exact hcs c (List.mem_of_getElem? hi)

theorem pipe?_addCall (hc : c.write? s = none) : (r.addCall c).pipe? s = r.pipe? s := by
  have hadded : (r.addCall c).calls = r.calls ++ [c] := rfl
  refine pipe?_of_append rfl hadded fun c' hc' => ?_
  obtain rfl := List.mem_singleton.mp hc'
  exact hc

/-- Whether a call that goes through a round of pings has crashed with it between `r` and `v`. -/
def LosesRound (r v : Registry) (i : Nat) : Prop :=
  (∃ c, r.calls[i]? = some c ∧ c.IsRound) ∧ v.calls[i]? = some .crashed

/-- What happens between `r` and `v` makes one pipe into another. -/
def Steps (r v : Registry) (t : Pipe) (m : Pipe.Move) (t' : Pipe) : Prop :=
  t.Step r.Processed (r.LosesRound v) m t'

/-! ### Tasks that go on -/

theorem writes_of_pipe? (h : r.pipe? s = some t) : r.writes s = t.writes := by
  obtain ⟨c, -, rfl⟩ := Outlet.exists_of_pipe? h
  rfl

theorem written_of_pipe? (h : r.pipe? s = some t) : r.written s = t.written := by
  obtain ⟨c, -, rfl⟩ := Outlet.exists_of_pipe? h
  rfl

theorem failures_of_pipe? (h : r.pipe? s = some t) : r.failures s = t.failures := by
  obtain ⟨c, -, rfl⟩ := Outlet.exists_of_pipe? h
  rfl

theorem sink_of_pipe? (h : r.pipe? s = some t) :
    (r.outlet s).sink = some (.channel t.channel) := by
  obtain ⟨c, hc, rfl⟩ := Outlet.exists_of_pipe? h
  exact hc

theorem sending_of_tight (h : r.pipe? s = some t) (ht : t.Tight n) (p : Party) :
    Sending (r.writes s p) := by
  intro d hd
  rw [writes_of_pipe? h] at hd
  exact (ht.writes p d hd).1

/-- One party at most writes to a subscriber at any moment. -/
def OneWrites (v : Registry) (s : SessionId) : Prop :=
  ∀ p q d e, v.writes s p = some d → v.writes s q = some e → p = q

/-- If one write at most is under way and it is that of the party that goes on, nobody else had one
before. -/
theorem alone_before (hone : v.OneWrites s)
    (hothers : ∀ q, q ≠ p → v.writes s q = r.writes s q) (d : Delivery)
    (hd : v.writes s p = some d) (q : Party) (hq : q ≠ p) : r.writes s q = none := by
  rw [← hothers q hq]
  cases he : v.writes s q with
  | none => rfl
  | some e => exact absurd (hone q p e d he hd) hq

theorem step_of_worker (h : r.pipe? s = some t) (ht : t.Tight n)
    (hready : r.workerReady s = true) (hone : (r.workerStep s).OneWrites s) :
    ∃ t', (r.workerStep s).pipe? s = some t' ∧
      (t' = t ∨ r.Steps (r.workerStep s) t .deliver t') := by
  have hsending := sending_of_tight h ht .worker
  rw [writes_worker] at hsending
  obtain ⟨o, hflow, ho⟩ := flow_workerStep (sink_of_pipe? h) hsending hready
  obtain ⟨gone, hgone⟩ := delivers_workerStep (r := r) (s := s)
  have hothers (q : Party) (hq : q ≠ .worker) : (r.workerStep s).writes s q = r.writes s q := by
    cases q with
    | worker => exact absurd rfl hq
    | call i => exact writes_call_congr (congrArg (·[i]?) hgone.calls)
  have hwrites : (r.workerStep s).writes s =
      Function.update (r.writes s) .worker ((r.workerStep s).outlet s).writer := by
    funext q
    by_cases hq : q = .worker
    · rw [hq, Function.update_self, writes_worker]
    · rw [Function.update_of_ne hq, hothers q hq]
  obtain ⟨t', ht', hstep⟩ : ∃ t', o.pipe? (Function.update (r.writes s) .worker
      ((r.workerStep s).outlet s).writer) = some t' ∧
        (t' = t ∨ r.Steps (r.workerStep s) t .deliver t') :=
    hflow.step h writes_worker fun d hd => alone_before hone hothers d (writes_worker.trans hd)
  refine ⟨t', ?_, hstep⟩
  rw [pipe?, ho, hwrites]
  exact ht'

/-- A call that goes on. -/
theorem step_of_callFlows {w : Option Delivery} {round : Prop} {crashes : Nat → Prop}
    (h : r.pipe? s = some t) (ht : t.Tight n) (hw : r.writes s (.call i) = w)
    (hflows : CallFlows round s r i w v)
    (hcrash : round → v.calls[i]? = some .crashed → crashes i)
    (hothers : ∀ j, j ≠ i → v.calls[j]? = r.calls[j]?) (hi : i < v.calls.length)
    (hone : v.OneWrites s) :
    ∃ t', v.pipe? s = some t' ∧ (t' = t ∨ t.Step r.Processed crashes .deliver t') := by
  obtain ⟨u, c, rfl, hflow⟩ := hflows
  have hget : (u.setCall i c).calls[i]? = some c := by
    rw [setCall, List.length_set] at hi
    exact List.getElem?_set_self hi
  have hothers (q : Party) (hq : q ≠ .call i) :
      (u.setCall i c).writes s q = r.writes s q := by
    cases q with
    | worker =>
      have hwriter : (u.outlet s).writer = (r.outlet s).writer := by
        rcases hflow with hflow | ⟨hgives, -, -⟩
        · exact (hflow.keeps (sink_of_pipe? h)).1
        · exact hgives.writer
      rw [writes_worker, writes_worker, outlet_setCall, hwriter]
    | call j => exact writes_call_congr (hothers j fun hji => hq (congrArg Party.call hji))
  have hwrites : (u.setCall i c).writes s =
      Function.update (r.writes s) (.call i) (c.write? s) := by
    funext q
    by_cases hq : q = .call i
    · rw [hq, Function.update_self, writes_call hget]
    · rw [Function.update_of_ne hq, hothers q hq]
  have hpipe : (u.setCall i c).pipe? s =
      (u.outlet s).pipe? (Function.update (r.writes s) (.call i) (c.write? s)) := by
    rw [pipe?, hwrites, outlet_setCall]
  rw [hpipe]
  rcases hflow with hflow | ⟨hgives, rfl, hround⟩
  · exact hflow.step h hw fun d hd =>
      alone_before hone hothers d ((writes_call hget).trans hd)
  · have hnone : Call.crashed.write? s = none := rfl
    rw [hnone]
    exact hgives.step h ht hw (hcrash hround hget)

/-- A call of the list that goes on. -/
theorem step_of_call (h : r.pipe? s = some t) (ht : t.Tight n) (hc : r.calls[i]? = some c)
    (hflows : CallFlows c.IsRound s r i (c.write? s) v) (hcalls : ∃ c', v.calls = r.calls.set i c')
    (hone : v.OneWrites s) :
    ∃ t', v.pipe? s = some t' ∧ (t' = t ∨ r.Steps v t .deliver t') := by
  obtain ⟨c', hc'⟩ := hcalls
  refine step_of_callFlows h ht (writes_call hc) hflows (fun hround hget => ⟨⟨c, hc, hround⟩, hget⟩)
    (fun j hj => ?_) ?_ hone
  · rw [hc', List.getElem?_set_ne (Ne.symm hj)]
  · rw [hc', List.length_set]
    exact (List.getElem?_eq_some_iff.mp hc).1

/-- A call that is made. -/
theorem step_of_started (h : r.pipe? s = some t) (ht : t.Tight n)
    (hflows : CallFlows False s (r.addCall .crashed) r.calls.length none v)
    (hcalls : v.calls = r.calls ++ [c]) (hone : v.OneWrites s) :
    ∃ t', v.pipe? s = some t' ∧ (t' = t ∨ r.Steps v t .deliver t') := by
  have hadded : (r.addCall .crashed).pipe? s = some t := (pipe?_addCall rfl).trans h
  refine step_of_callFlows (r := r.addCall .crashed) hadded ht ?_ hflows False.elim
    (fun j hj => ?_) ?_ hone
  · exact writes_call (c := .crashed) List.getElem?_concat_length
  · have hadd : (r.addCall .crashed).calls = r.calls ++ [.crashed] := rfl
    rw [hcalls, hadd]
    rcases Nat.lt_or_gt_of_ne hj with hlt | hgt
    · rw [List.getElem?_append_left hlt, List.getElem?_append_left hlt]
    · have hbeyond (c : Call) : (r.calls ++ [c])[j]? = none :=
        List.getElem?_eq_none_iff.mpr (by rw [List.length_append]; exact hgt)
      rw [hbeyond, hbeyond]
  · rw [hcalls, List.length_append]
    exact Nat.lt_succ_self _

/-! ### Calls that are made -/

theorem callFlows_publishHistorical (b : Batch Nat) :
    CallFlows False s (r.addCall .crashed) r.calls.length none (r.publishHistorical b) := by
  refine .settleCall (fun _ => rfl) (.inl ?_)
  rw [outlet_nextBackfill, write?_nextBackfill]
  exact .still none

theorem callFlows_sendHistorical (s' : SessionId) (b : Batch Nat) :
    CallFlows False s (r.addCall .crashed) r.calls.length none (r.sendHistorical s' b) := by
  unfold sendHistorical startCall
  dsimp only
  have hasked := outlet_askGate (r := r.addCall .crashed) (s := s) (t := s')
    (p := .call r.calls.length)
  split
  · exact .quiet rfl rfl
  · split
    · rename_i w hw
      rw [hw] at hasked
      exact .quiet hasked (directWrite?_of_unbegun (unbegun_single rfl))
    · rename_i w hw
      rw [hw] at hasked
      exact .quiet ((outlet_count _).trans hasked) rfl

theorem callFlows_unsubscribe (s' : SessionId) :
    CallFlows False s (r.addCall .crashed) r.calls.length none (r.unsubscribe s') := by
  unfold Registry.unsubscribe startCall
  dsimp only
  have hdetached := outlet_detach (r := r.addCall .crashed) (s := s) (t := s') .unsubscribed
  split
  · rename_i w hw
    rw [hw] at hdetached
    exact .quiet hdetached rfl
  · rename_i w hw
    rw [hw] at hdetached
    exact .unsubscribe ((outlet_farewellStep _).trans hdetached)

theorem callFlows_sweep : CallFlows False s (r.addCall .crashed) r.calls.length none r.sweep :=
  .sweep (outlet_nextSweep _ _)

theorem callFlows_ping : CallFlows False s (r.addCall .crashed) r.calls.length none r.ping := by
  refine .settleCall (fun _ => rfl) (.inl ?_)
  rw [outlet_beginPings, write?_beginPings fun _ => rfl]
  exact .still none

/-! ### What reaches a registry from outside -/

/-- Nothing of what a channel is written is held. -/
theorem pipe?_release (hr : Settled T r) (h : r.pipe? s = some t) (ht : t.Tight n)
    (s' : SessionId) (o : WriteOutcome) : (r.release s' o).1.pipe? s = r.pipe? s := by
  have hsending := sending_of_tight h ht
  have hheld {now : Nat} {run run' : Delivery} (h : release? now o run = some run') (p : Party) :
      r.posts s p ≠ .busy run := by
    intro hbusy
    have hpoint : run.point = .writing .held := by
      unfold release? at h
      split at h
      · assumption
      · cases h
    have hd := hsending p run (by
      simp [writes, hbusy, Post.write?, Delivery.isWriting, hpoint])
    rw [hpoint] at hd
    cases hd
  unfold release
  dsimp only
  split
  · -- the write is one of the worker
    rename_i run' hworker
    split at hworker
    · rename_i run hrun
      obtain ⟨x, hx, hxw⟩ := Option.map_eq_some_iff.mp hrun
      have hs : s' ≠ s := by
        rintro rfl
        refine hheld hworker .worker ?_
        rw [posts_worker hx, hxw]
        rfl
      exact pipe?_of_calls (outlet_setWorker_of_ne _ hs) rfl
    · cases hworker
  · split
    · -- the write is one of a call
      rename_i cs hcalls
      obtain ⟨i, c, c', hc, rfl, hcall⟩ := releaseCalls?_some hcalls
      obtain ⟨run, run', hrelease, hgoes, -⟩ := releaseCall?_some (T := T) (r := r) hcall
      have hplaced := hr.placed c (List.mem_of_getElem? hc)
      obtain ⟨hpost, hposts⟩ := hgoes.posts hplaced.directs.nodup
      have hs : s ≠ s' := by
        rintro rfl
        exact hheld hrelease (.call i) ((congrFun (posts_call hc) s).trans hpost)
      refine pipe?_congr rfl fun j => ?_
      by_cases hj : j = i
      · subst hj
        have hget : (r.calls.set j c')[j]? = some c' :=
          List.getElem?_set_self (List.getElem?_eq_some_iff.mp hc).1
        have hwrite : c'.write? s = c.write? s := by
          rw [Call.write?, directWrite?, hposts, Function.update_of_ne hs]
          rfl
        rw [writes_call hget, writes_call hc, hwrite]
      · exact writes_call_congr (List.getElem?_set_ne (Ne.symm hj))
    · rfl

/-- What reaches the channel of a subscriber with an action. -/
def moveOf (r : Registry) (s : SessionId) : Action → Pipe.Move
  | .receive s' =>
    if s' = s then ((r.receive? s).map fun received => Pipe.Move.receive received.1).getD .deliver
    else .deliver
  | .dropReceiver s' => if s' = s then .drop else .deliver
  | _ => .deliver

/-- A change of the channel of a subscriber that leaves its worker alone. -/
theorem pipe?_update (h : r.pipe? s = some t) (hx : r.session? s = some x)
    {f : Session → Session} (hsink : (f x).sink = .channel k)
    (hworker : (f x).worker = x.worker) :
    (r.update s f).pipe? s = some { t with channel := k } := by
  obtain ⟨c, -, rfl⟩ := Outlet.exists_of_pipe? h
  have hnow : (r.update s f).outlet s = { r.outlet s with sink := some (.channel k) } := by
    rw [outlet_of_session? (session?_update hx f), outlet_of_session? hx, hsink, hworker]
    rfl
  have hwrites : (r.update s f).writes s = r.writes s := by
    funext p
    cases p with
    | worker => rw [writes_worker, writes_worker, hnow]
    | call i => exact writes_call_congr rfl
  rw [pipe?, hnow, hwrites]
  rfl

theorem step_of_receive (h : r.pipe? s = some t) (s' : SessionId) (v : Registry) :
    ∃ t', (r.apply (.receive s')).pipe? s = some t' ∧
      (t' = t ∧ r.moveOf s (.receive s') = .deliver ∨
        r.Steps v t (r.moveOf s (.receive s')) t') := by
  by_cases hs : s' = s
  · subst hs
    obtain ⟨x, hx, hk⟩ := exists_of_sink (sink_of_pipe? h)
    have hmove : r.moveOf s' (.receive s') =
        ((r.receive? s').map fun received => Pipe.Move.receive received.1).getD .deliver :=
      if_pos rfl
    cases hc : t.channel.receive? with
    | none =>
      have hreceive : r.receive? s' = none := by
        simp only [receive?, hx, Option.map_some, hk, hc, Option.map_none]
      have hsame : r.apply (.receive s') = r := by
        simp only [apply, hreceive]
        rfl
      rw [hsame, hmove, hreceive]
      exact ⟨t, h, .inl ⟨rfl, rfl⟩⟩
    | some received =>
      obtain ⟨b, c⟩ := received
      have hreceive : r.receive? s' =
          some (b, r.update s' fun x => { x with sink := .channel c }) := by
        simp only [receive?, hx, Option.map_some, hk, hc]
      have hnow : r.apply (.receive s') =
          r.update s' fun x => { x with sink := .channel c } := by
        simp only [apply, hreceive]
        rfl
      rw [hnow, hmove, hreceive]
      exact ⟨_, pipe?_update h hx rfl rfl, .inr (.receive b c hc)⟩
  · have hmove : r.moveOf s (.receive s') = .deliver := if_neg hs
    rw [hmove]
    refine ⟨t, Eq.trans ?_ h, .inl ⟨rfl, rfl⟩⟩
    show (((r.receive? s').map (·.2)).getD r).pipe? s = r.pipe? s
    unfold receive?
    split
    · rename_i c hc
      cases c.receive? with
      | none => rfl
      | some received => exact pipe?_of_calls (outlet_update_of_ne _ hs) rfl
    · rfl

theorem step_of_dropReceiver (h : r.pipe? s = some t) (s' : SessionId) (v : Registry) :
    ∃ t', (r.apply (.dropReceiver s')).pipe? s = some t' ∧
      (t' = t ∧ r.moveOf s (.dropReceiver s') = .deliver ∨
        r.Steps v t (r.moveOf s (.dropReceiver s')) t') := by
  by_cases hs : s' = s
  · subst hs
    obtain ⟨x, hx, hk⟩ := exists_of_sink (sink_of_pipe? h)
    have hmove : r.moveOf s' (.dropReceiver s') = .drop := if_pos rfl
    rw [hmove]
    exact ⟨_, pipe?_update h hx (by simp only [hk]) (by simp only [hk]), .inr .close⟩
  · have hmove : r.moveOf s (.dropReceiver s') = .deliver := if_neg hs
    rw [hmove]
    exact ⟨t, (pipe?_of_calls (outlet_update_of_ne _ hs) rfl).trans h, .inl ⟨rfl, rfl⟩⟩

/-! ### Every action -/

/-- A task that runs. -/
theorem step_of_task (hr : Settled T r) (h : r.pipe? s = some t) (ht : t.Tight n) {task : Task}
    (hready : r.ready task = true) (hone : (r.step task).OneWrites s) :
    ∃ t', (r.step task).pipe? s = some t' ∧
      (t' = t ∨ r.Steps (r.step task) t .deliver t') := by
  cases task with
  | worker s' =>
    by_cases hs : s' = s
    · subst hs
      exact step_of_worker h ht hready hone
    · obtain ⟨gone, hgone⟩ := delivers_workerStep (r := r) (s := s')
      exact ⟨t, (pipe?_of_calls (outlet_workerStep_of_ne hs) hgone.calls).trans h, .inl rfl⟩
  | call i =>
    cases hc : r.calls[i]? with
    | none => simp [ready, hc] at hready
    | some c =>
      have hstep : r.step (.call i) = r.callStep i c := by simp only [step, hc]
      simp only [ready, hc] at hready
      rw [hstep] at hone ⊢
      have hsending : Sending (c.write? s) := by
        rw [← writes_call hc]
        exact sending_of_tight h ht (.call i)
      have hplaced := hr.placed c (List.mem_of_getElem? hc)
      exact step_of_call h ht hc
        (callFlows_callStep (sink_of_pipe? h) hplaced.directs.nodup hsending hready)
        (proceeds_callStep hr hc hready).exists_calls hone

/-- A pass that begins. -/
theorem step_of_tick (h : r.pipe? s = some t) (ht : t.Tight n) (i : Nat)
    (hone : (r.tick i).OneWrites s) :
    ∃ t', (r.tick i).pipe? s = some t' ∧ (t' = t ∨ r.Steps (r.tick i) t .deliver t') := by
  have hsame {v : Registry} (hv : v = r) :
      ∃ t', v.pipe? s = some t' ∧ (t' = t ∨ r.Steps v t .deliver t') := by
    rw [hv]
    exact ⟨t, h, .inl rfl⟩
  cases hc : r.calls[i]? with
  | none => exact hsame (by simp only [tick, hc])
  | some c =>
    cases c with
    | sweepLoop l =>
      have htick : r.tick i =
          if l.pass.isNone && decide (l.next ≤ r.nanos) then r.sweepTick i l else r := by
        simp only [tick, hc]
      rw [htick] at hone ⊢
      split at hone
      · next hdue =>
        rw [if_pos hdue]
        exact step_of_call h ht hc (callFlows_sweepTick l)
          (proceeds_sweepTick l l).exists_calls hone
      · next hdue => exact hsame (if_neg hdue)
    | pingLoop l =>
      have htick : r.tick i =
          if l.pass.isNone && decide (l.next ≤ r.nanos) then r.pingTick i l else r := by
        simp only [tick, hc]
      rw [htick] at hone ⊢
      split at hone
      · next hdue =>
        have hpass : l.pass = none :=
          Option.isNone_iff_eq_none.mp (Bool.and_eq_true_iff.mp hdue).1
        have hidle : (Call.pingLoop l).write? s = none := by
          simp only [Call.write?, Call.directs, hpass]
          rfl
        rw [if_pos hdue]
        exact step_of_call h ht hc (hidle ▸ callFlows_pingTick l)
          (proceeds_pingTick l l).exists_calls hone
      · next hdue => exact hsame (if_neg hdue)
    | _ => exact hsame (by simp only [tick, hc])

theorem pipe?_subscribe (request : Subscription) : (r.subscribe request).pipe? s = r.pipe? s := by
  unfold subscribe
  split
  · exact pipe?_addCall rfl
  · exact (pipe?_addCall rfl).trans (pipe?_of_calls (outlet_note rfl rfl) rfl)

theorem pipe?_stop (hr : Settled T r) : r.stop.pipe? s = r.pipe? s := by
  have houtlet : r.stop.outlet s = r.outlet s := outlet_stop
  unfold stop at houtlet ⊢
  split
  · exact pipe?_addCall rfl
  · rename_i hrunning
    rw [if_neg hrunning] at houtlet
    obtain ⟨es, -, hevacuate⟩ := evacuate_eq hr.sound
    rw [hevacuate] at houtlet ⊢
    refine pipe?_of_append houtlet (List.append_assoc ..) fun c hc => ?_
    rcases List.mem_append.mp hc with hstop | hfarewell
    · obtain rfl := List.mem_singleton.mp hstop
      rfl
    · obtain ⟨s', -, rfl⟩ := List.mem_map.mp hfarewell
      rfl

theorem pipe?_drop (hr : Settled T r) : r.drop.pipe? s = r.pipe? s := by
  refine pipe?_of_calls outlet_drop ?_
  unfold drop
  split
  · rfl
  · obtain ⟨es, -, hevacuate⟩ := evacuate_eq hr.sound
    rw [hevacuate]
    rfl

/-- Whatever happens to a registry, the channel of a subscriber takes a step or stays as it is. -/
theorem step_of_apply (hr : Settled T r) (h : r.pipe? s = some t) (ht : t.Tight n)
    (action : Action) (hone : (r.apply action).OneWrites s) :
    ∃ t', (r.apply action).pipe? s = some t' ∧
      (t' = t ∧ r.moveOf s action = .deliver ∨
        r.Steps (r.apply action) t (r.moveOf s action) t') := by
  have hsteps (hmove : r.moveOf s action = .deliver) (hstep : ∃ t', (r.apply action).pipe? s =
      some t' ∧ (t' = t ∨ r.Steps (r.apply action) t .deliver t')) :
      ∃ t', (r.apply action).pipe? s = some t' ∧
        (t' = t ∧ r.moveOf s action = .deliver ∨
          r.Steps (r.apply action) t (r.moveOf s action) t') := by
    obtain ⟨t', ht', hstep⟩ := hstep
    rw [hmove]
    exact ⟨t', ht', hstep.imp_left fun hsame => ⟨hsame, rfl⟩⟩
  have hsame (hmove : r.moveOf s action = .deliver) (hpipe : (r.apply action).pipe? s = r.pipe? s) :
      ∃ t', (r.apply action).pipe? s = some t' ∧
        (t' = t ∧ r.moveOf s action = .deliver ∨
          r.Steps (r.apply action) t (r.moveOf s action) t') :=
    ⟨t, hpipe.trans h, .inl ⟨rfl, hmove⟩⟩
  cases action with
  | run task =>
    refine hsteps rfl ?_
    cases hready : r.ready task with
    | false =>
      have hnothing : r.apply (.run task) = r := by simp [apply, hready]
      rw [hnothing]
      exact ⟨t, h, .inl rfl⟩
    | true =>
      have hstep : r.apply (.run task) = r.step task := by simp [apply, hready]
      rw [hstep] at hone ⊢
      exact step_of_task hr h ht hready hone
  | tick i => exact hsteps rfl (step_of_tick h ht i hone)
  | elapse ms => exact hsame rfl rfl
  | cancel token => exact hsame rfl rfl
  | subscribe request => exact hsame rfl (pipe?_subscribe request)
  | activate s' =>
    have hworker (x : Session) (hx : r.session? s' = some x) :
        x.stage = .registered → x.worker = .absent := (hr.sound.lawful s' x hx).worker_of_stage.1
    exact hsame rfl
      (pipe?_of_calls (outlet_activate hworker) (effect_activate (q := none) s').calls)
  | publishLive b =>
    exact hsame rfl (pipe?_of_calls outlet_publishLive (effect_publishLive (q := none)).calls)
  | publishHistorical b =>
    obtain ⟨c, hc⟩ := exists_settleCall r.calls.length .backfilling returnedCount
      ((r.addCall .crashed).nextBackfill (.call r.calls.length) b 0 (r.addCall .crashed).members)
    exact hsteps rfl (step_of_started h ht (callFlows_publishHistorical b)
      (calls_startCall (effect_nextBackfill (q := none) 0 _).calls hc) hone)
  | sendHistorical s' b =>
    obtain ⟨c, hc⟩ := calls_sendHistorical (r := r) s' b
    exact hsteps rfl (step_of_started h ht (callFlows_sendHistorical s' b) hc hone)
  | unsubscribe s' =>
    obtain ⟨c, hc⟩ := calls_unsubscribe (r := r) s'
    exact hsteps rfl (step_of_started h ht (callFlows_unsubscribe s') hc hone)
  | sweep =>
    obtain ⟨c, hc⟩ := calls_sweep (r := r)
    exact hsteps rfl (step_of_started h ht callFlows_sweep hc hone)
  | ping =>
    obtain ⟨c, hc⟩ := exists_settleCall r.calls.length .pinging returnedCount
      ((r.addCall .crashed).beginPings (.call r.calls.length))
    exact hsteps rfl (step_of_started h ht callFlows_ping
      (calls_startCall (effect_beginPings (q := none)).calls hc) hone)
  | stop => exact hsame rfl (pipe?_stop hr)
  | drop => exact hsame rfl (pipe?_drop hr)
  | release s' o => exact hsame rfl (pipe?_release hr h ht s' o)
  | receive s' => exact step_of_receive h s' _
  | dropReceiver s' => exact step_of_dropReceiver h s' _
  | awaitRemoval s' => exact hsame rfl (pipe?_addCall rfl)

end Registry

end Multicast
