import Mathlib.Data.List.Induction
import Multicast.Proofs.Registry.Account
import Multicast.Proofs.Registry.CallList
import Multicast.Proofs.Traffic.Growth

/-! The frames of pings. A round chooses the frame of a ping when it asks for the gate of a
subscriber, and the write begins when the gate has come. What is delivered in between is not in the
frame: it is the data sent last when the ping got in line. -/

namespace Multicast

/-- The round of pings of a call. -/
def Call.round : Call → List PingPoint
  | .pinging p => p.pings
  | .pingLoop l => (l.pass.map PingPass.pings).getD []
  | _ => []

theorem Call.mem_directs {c : Call} {d : Direct} (h : d ∈ pingDirects c.round) : d ∈ c.directs := by
  cases c with
  | pinging p => exact h
  | pingLoop l =>
    rw [round] at h
    rw [directs]
    cases hpass : l.pass with
    | none =>
      rw [hpass] at h
      cases h
    | some p =>
      rw [hpass] at h
      exact h
  | _ => cases h

/-- Only a call that pings, and the loop that pings, have a round. -/
theorem Call.purpose?_of_mem_round {c : Call} {d : Direct} (h : d ∈ pingDirects c.round) :
    c.purpose? = some .ping ∨ c.purpose? = some .pingLoop := by
  cases c with
  | pinging p => exact .inl rfl
  | pingLoop l => exact .inr rfl
  | _ => cases h

/-! ### Posts and pings -/

theorem postsOf_of_mem {ds : List Direct} {d : Direct} (hd : d ∈ ds)
    (hn : (ds.map Direct.session).Nodup) : postsOf ds d.session = d.post := by
  unfold postsOf
  induction ds with
  | nil => cases hd
  | cons e rest ih =>
    obtain ⟨he, hrest⟩ := List.nodup_cons.mp hn
    rw [overlay]
    rcases List.mem_cons.mp hd with rfl | hd
    · exact Function.update_self ..
    · have hne : d.session ≠ e.session := fun h => he (h ▸ List.mem_map_of_mem hd)
      rw [Function.update_of_ne hne]
      exact ih hd hrest

theorem exists_of_postsOf_busy {ds : List Direct} {s : SessionId} {run : Delivery}
    (h : postsOf ds s = .busy run) : ∃ d ∈ ds, d.session = s ∧ d.delivery = some run := by
  unfold postsOf at h
  induction ds with
  | nil => cases h
  | cons e rest ih =>
    rw [overlay] at h
    by_cases hs : s = e.session
    · subst hs
      rw [Function.update_self, Direct.post] at h
      cases hrun : e.delivery with
      | none =>
        rw [hrun] at h
        cases h
      | some run' =>
        rw [hrun] at h
        obtain rfl := Post.busy.inj h
        exact ⟨e, List.mem_cons_self, rfl, hrun⟩
    · rw [Function.update_of_ne hs] at h
      obtain ⟨d, hd, hfound⟩ := ih h
      exact ⟨d, List.mem_cons_of_mem e hd, hfound⟩

/-! ### What is in hand on a path -/

/-- Whether what is in hand is delivered in the way of its path. -/
def Hand.Proper : Hand → Prop
  | .line path kind _ _ => kind = path
  | .busy path _ d => d.kind = path
  | .reached _ | .offered | .lost => True

/-- Whether all that is in hand is delivered in the way of its path. -/
def Traffic.Proper (a : Traffic) : Prop := ∀ h ∈ a.hands, h.Proper

namespace Traffic.Proper

variable {a b : Traffic}

theorem transit (h : a.Proper) (t : Transit a b) : b.Proper := by
  have hcons {r v : Registry} {H : Multiset Hand} {g g' : Hand}
      (h : Traffic.Proper ⟨r, g ::ₘ H⟩) (hg : g.Proper → g'.Proper) :
      Traffic.Proper ⟨v, g' ::ₘ H⟩ := by
    obtain ⟨hfirst, hrest⟩ := Multiset.forall_mem_cons.mp h
    exact Multiset.forall_mem_cons.mpr ⟨hg hfirst, hrest⟩
  have hnew {r v : Registry} {H : Multiset Hand} {g : Hand} (h : Traffic.Proper ⟨r, H⟩)
      (hg : g.Proper) : Traffic.Proper ⟨v, g ::ₘ H⟩ := Multiset.forall_mem_cons.mpr ⟨hg, h⟩
  have hless {r v : Registry} {G H : Multiset Hand} (h : Traffic.Proper ⟨r, G + H⟩) :
      Traffic.Proper ⟨v, H⟩ := fun g hg => h g (Multiset.mem_add.mpr (.inr hg))
  cases t with
  | note | count | roster | touch | discard => exact h
  | accept => exact hnew h trivial
  | take => exact hnew h rfl
  | join => exact hnew h rfl
  | crash => exact hnew h trivial
  | quit | rest | abandon => exact (Multiset.forall_mem_cons.mp h).2
  | skip | succeed | finish => exact hcons h fun _ => trivial
  | begin path b d who sink hx hwho hframe hw => exact hcons h id
  | goOn path d d' hkind hframe hw => exact hcons h hkind.trans
  | fail path d d' who e took hw hkind => exact hcons h hkind.trans
  | reportLive | reportHistorical | reportPings => exact hless h

theorem transfers (h : a.Proper) (t : Transfers a b) : b.Proper := by
  induction t with
  | refl => exact h
  | tail _ hstep ih =>
    cases hstep with
    | transit t => exact ih.transit t
    | beside | work | enrol => exact ih

end Traffic.Proper

namespace Registry

variable {T : Terms} {r v w : Registry} {i : Nat} {c c' : Call} {s : SessionId} {p : Party}
  {d d' : Direct} {run : Delivery} {ps qs : List PingPoint} {pass : PingPass}
  {config : Config} {hooks : Hooks}

/-- A ping that is being written belongs to the round of a call. -/
theorem exists_round_of_busy (hproper : ∀ h ∈ r.hands, h.Proper)
    (h : r.posts s p = .busy run) (hk : run.kind = .ping) : ∃ i c d, p = .call i ∧
      r.calls[i]? = some c ∧ d ∈ pingDirects c.round ∧ d.session = s ∧ d.delivery = some run := by
  -- what is under way elsewhere is in hand on a path of another kind
  have hpath (path : DeliveryKind) (hne : path ≠ .ping) : .busy path s run ∉ r.hands :=
    fun hmem => hne ((hproper _ hmem).symm.trans hk)
  cases p with
  | worker =>
    cases hx : r.session? s with
    | none => simp [posts, hx] at h
    | some x =>
      rw [posts_worker hx] at h
      obtain ⟨G, hhands, -⟩ := exists_hands_worker hx
      cases hw : x.worker with
      | delivering e =>
        rw [hw] at h hhands
        obtain rfl := Post.busy.inj h
        refine absurd ?_ (hpath .live DeliveryKind.noConfusion)
        rw [hhands]
        exact Multiset.mem_add.mpr (.inl (Multiset.mem_singleton_self _))
      | _ =>
        rw [hw] at h
        cases h
  | call i =>
    cases hc : r.calls[i]? with
    | none => simp [posts, hc] at h
    | some c =>
      have hposts : postsOf c.directs s = .busy run := (congrFun (posts_call hc) s).symm.trans h
      obtain ⟨d, hd, rfl, hrun⟩ := exists_of_postsOf_busy hposts
      obtain ⟨G, hhands, -⟩ := exists_hands_call hc
      have hhand (path : DeliveryKind) : d.hand path = .busy path d.session run := by
        rw [Direct.hand, hrun]
      refine ⟨i, c, d, rfl, hc, ?_, rfl, hrun⟩
      cases c with
      | pinging p => exact hd
      | pingLoop l =>
        rw [Call.directs] at hd
        rw [Call.round]
        cases hpass : l.pass with
        | none =>
          rw [hpass] at hd
          cases hd
        | some p =>
          rw [hpass] at hd
          exact hd
      | backfilling b =>
        obtain rfl := List.mem_singleton.mp hd
        refine absurd ?_ (hpath .historical DeliveryKind.noConfusion)
        rw [hhands, ← hhand]
        exact Multiset.mem_add.mpr (.inl (Multiset.mem_add.mpr (.inl
          (Multiset.mem_singleton_self _))))
      | sending e =>
        obtain rfl := List.mem_singleton.mp hd
        refine absurd ?_ (hpath .historical DeliveryKind.noConfusion)
        rw [hhands, ← hhand]
        exact Multiset.mem_add.mpr (.inl (Multiset.mem_singleton_self _))
      | _ => cases hd

/-- A ping of a round stands where the party of its call does. -/
theorem posts_of_mem_round (hr : Settled T r) (hc : r.calls[i]? = some c)
    (hd : d ∈ pingDirects c.round) : r.posts d.session (.call i) = d.post := by
  have hplaced := hr.placed c (List.mem_of_getElem? hc)
  have hposts : r.posts d.session (.call i) = postsOf c.directs d.session :=
    congrFun (posts_call hc) d.session
  exact hposts.trans (postsOf_of_mem (Call.mem_directs hd) hplaced.directs.nodup)

theorem kind_of_mem_round (hr : Settled T r) (hc : r.calls[i]? = some c)
    (hd : d ∈ pingDirects c.round) : d.kind = .ping := by
  have hfit := (hr.placed c (List.mem_of_getElem? hc)).fit
  cases c with
  | pinging p => exact hfit d hd
  | pingLoop l =>
    rw [Call.round] at hd
    cases hpass : l.pass with
    | none =>
      rw [hpass] at hd
      cases hd
    | some p =>
      rw [hpass] at hd
      exact hfit p hpass d hd
  | _ => cases hd

/-! ### The data sent last -/

/-- The data that was delivered to a subscriber, the latest first. -/
def dataSent (r : Registry) (s : SessionId) : List (Batch Nat) := WriteMark.delivered (r.log s)

/-- The data that was delivered to a subscriber last. -/
def lastData (r : Registry) (s : SessionId) : Batch Nat := ((r.dataSent s).head?).getD .empty

/-- The frame that a ping would get now. -/
def dueFrame (r : Registry) (s : SessionId) : Batch Nat :=
  ((r.session? s).map Session.pingFrame).getD .empty

/-- A ping would get the data sent last. -/
theorem dueFrame_run (actions : List Action) (s : SessionId) :
    ((new config hooks).run actions).dueFrame s = ((new config hooks).run actions).lastData s := by
  have hr := settled_any_run config hooks actions
  unfold dueFrame
  cases hx : ((new config hooks).run actions).session? s with
  | none =>
    have hlog : ((new config hooks).run actions).log s = [] := (hr.sound.strangers s hx).2
    rw [lastData, dataSent, hlog]
    rfl
  | some x => exact congrArg (·.getD .empty) (ledger_of_run config hooks actions hx).lastSent

theorem Grows.dataSent (h : r.Grows v) (s : SessionId) : r.dataSent s <:+ v.dataSent s :=
  (h.history.filterMap _).filterMap _

/-! ### A round begins -/

theorem dueFrame_askGate {granted : Bool} (h : r.askGate s p = (v, granted)) (t : SessionId) :
    v.dueFrame t = r.dueFrame t := by
  unfold askGate at h
  cases hx : r.session? s with
  | none =>
    rw [hx] at h
    obtain rfl := (Prod.mk.inj h).1
    rfl
  | some x =>
    rw [hx] at h
    dsimp only at h
    split at h
    · obtain rfl := (Prod.mk.inj h).1
      unfold dueFrame updateQueue
      rw [update_eq_put hx]
      by_cases ht : t = s
      · subst ht
        rw [session?_put_self hx, hx]
        rfl
      · rw [session?_put_of_ne _ ht]
    · obtain rfl := (Prod.mk.inj h).1
      rfl

/-- A ping that has asked for the gate stands in line with the frame that was due. -/
theorem mem_askPings {ss : List SessionId} (h : d ∈ pingDirects (r.askPings p ss).2) :
    d.delivery = none ∧ d.batch = r.dueFrame d.session := by
  induction ss generalizing r with
  | nil => cases h
  | cons s rest ih =>
    unfold askPings at h
    dsimp only at h
    split at h
    · rename_i w hgate
      rcases List.mem_cons.mp h with rfl | h
      · exact ⟨rfl, rfl⟩
      · obtain ⟨hnone, hbatch⟩ := ih h
        exact ⟨hnone, hbatch.trans (dueFrame_askGate hgate _)⟩
    · exact ih h

theorem closePings_running (h : r.closePings ps = (w, .running pass)) :
    w = r ∧ pass.pings = ps := by
  unfold closePings at h
  split at h
  · cases h
  · obtain ⟨hw, hpass⟩ := Prod.mk.inj h
    exact ⟨hw.symm, by cases hpass; rfl⟩

theorem mem_beginPings (h : r.beginPings p = (w, .running pass)) (hd : d ∈ pingDirects pass.pings) :
    d.delivery = none ∧ d.batch = r.dueFrame d.session := by
  obtain ⟨-, hpings⟩ := closePings_running h
  rw [hpings] at hd
  exact mem_askPings hd

/-! ### A round goes on -/

/-- After a round has gone on each ping stands where it stood, or is the one that went on. -/
theorem mem_stepPings (h : r.stepPings p ps = (w, some qs)) (hd' : d' ∈ pingDirects qs) :
    d' ∈ pingDirects ps ∨ ∃ d ∈ pingDirects ps, r.directReady p d = true ∧
      r.directStep p d = (w, .running d') := by
  -- the first ping that can goes on; those before it are passed over, those after it are left alone
  induction ps generalizing qs with
  | nil =>
    cases h
    cases hd'
  | cons point rest ih =>
    have hlater (point : PingPoint) (h : d' ∈ pingDirects rest ∨ ∃ d ∈ pingDirects rest,
        r.directReady p d = true ∧ r.directStep p d = (w, .running d')) :
        d' ∈ pingDirects (point :: rest) ∨ ∃ d ∈ pingDirects (point :: rest),
          r.directReady p d = true ∧ r.directStep p d = (w, .running d') := by
      have hsub : ∀ e ∈ pingDirects rest, e ∈ pingDirects (point :: rest) := by
        cases point with
        | waiting e => exact fun _ => List.mem_cons_of_mem e
        | answered _ => exact fun _ => id
      rcases h with h | ⟨d, hd, hstep⟩
      · exact .inl (hsub d' h)
      · exact .inr ⟨d, hsub d hd, hstep⟩
    cases point with
    | answered reached =>
      rw [stepPings] at h
      rcases hrest : r.stepPings p rest with ⟨u, left⟩
      rw [hrest] at h
      obtain ⟨rfl, hleft⟩ := Prod.mk.inj h
      obtain ⟨qs', rfl, rfl⟩ := Option.map_eq_some_iff.mp hleft
      exact hlater _ (ih hrest hd')
    | waiting e =>
      rw [stepPings] at h
      split at h
      · rename_i hready
        rcases hstep : r.directStep p e with ⟨u, progress⟩
        rw [hstep] at h
        cases progress with
        | running e' =>
          obtain ⟨rfl, hqs⟩ := Prod.mk.inj h
          obtain rfl := Option.some.inj hqs
          rcases List.mem_cons.mp hd' with rfl | hd'
          · exact .inr ⟨e, List.mem_cons_self, hready, hstep⟩
          · exact .inl (List.mem_cons_of_mem e hd')
        | done reached =>
          obtain ⟨rfl, hqs⟩ := Prod.mk.inj h
          obtain rfl := Option.some.inj hqs
          exact .inl (List.mem_cons_of_mem e hd')
        | crashed => cases h
      · rcases hrest : r.stepPings p rest with ⟨u, left⟩
        rw [hrest] at h
        cases left with
        | none => cases h
        | some qs' =>
          obtain ⟨rfl, hqs⟩ := Prod.mk.inj h
          obtain rfl := Option.some.inj hqs
          rcases List.mem_cons.mp hd' with rfl | hd'
          · exact .inl List.mem_cons_self
          · exact hlater _ (ih hrest hd')

/-- How a ping of the round of a call has come to where it stands after an action. -/
inductive PingMove (r : Registry) (i : Nat) (v : Registry) (d' : Direct) : Prop
  | stays {c : Call} (hc : r.calls[i]? = some c) (hd : d' ∈ pingDirects c.round)
  /-- Its round has begun. -/
  | asked (haway : r.posts d'.session (.call i) = .away) (hdelivery : d'.delivery = none)
      (hbatch : d'.batch = r.dueFrame d'.session)
  | steps {c : Call} {d : Direct} {w : Registry} (hc : r.calls[i]? = some c)
      (hd : d ∈ pingDirects c.round) (hready : r.directReady (.call i) d = true)
      (hstep : r.directStep (.call i) d = (w, .running d')) (hhistory : v.history = w.history)
  /-- Its write was held and is let go on. -/
  | released {c : Call} {d : Direct} {run run' : Delivery} (hc : r.calls[i]? = some c)
      (hd : d ∈ pingDirects c.round) (hrun : d.delivery = some run)
      (hsession : d'.session = d.session) (hrun' : d'.delivery = some run')

namespace PingMove

/-- A call whose round has gone on. -/
theorem of_pingStep (hc : r.calls[i]? = some c) (hround : c.round = ps)
    (h : r.pingStep (.call i) ⟨ps⟩ = (w, .running pass)) (hd' : d' ∈ pingDirects pass.pings)
    (hv : v.history = w.history) : PingMove r i v d' := by
  subst hround
  unfold pingStep at h
  dsimp only at h
  rcases hstep : r.stepPings (.call i) c.round with ⟨u, left⟩
  rw [hstep] at h
  cases left with
  | none => cases h
  | some qs =>
    obtain ⟨rfl, hpings⟩ := closePings_running h
    rw [hpings] at hd'
    rcases mem_stepPings hstep hd' with hd' | ⟨d, hd, hready, hdirect⟩
    · exact .stays hc hd'
    · exact .steps hc hd hready hdirect hv

/-- A call one of whose writes was let go on. -/
theorem of_releasePings (hc : r.calls[i]? = some c) (hround : c.round = ps) {now : Nat}
    {o : WriteOutcome} (h : releasePings? now s o ps = some qs) (hd' : d' ∈ pingDirects qs) :
    PingMove r i v d' := by
  subst hround
  obtain ⟨run, run', -, hgoes⟩ := releasePings?_some h
  obtain ⟨d, hd, hsession, hbatch, hkind, hdelivery⟩ := hgoes.exists_mem hd'
  rcases hdelivery with hsame | ⟨hrun, hrun'⟩
  · obtain rfl : d' = d := by
      cases d
      cases d'
      simp_all
    exact .stays hc hd
  · exact .released hc hd hrun hsession hrun'

end PingMove

/-- A round that a call is left with is under way. -/
theorem running_of_settleCall {o : Registry × Progress PingPass Nat}
    (h : (settleCall i .pinging returnedCount o).calls[i]? = some c')
    (hd : d ∈ pingDirects c'.round) : ∃ pass, o = (o.1, .running pass) ∧
      d ∈ pingDirects pass.pings ∧
      (settleCall i .pinging returnedCount o).history = o.1.history := by
  obtain ⟨w, progress⟩ := o
  cases progress with
  | running pass =>
    obtain rfl := eq_of_setCall h
    exact ⟨pass, rfl, hd, rfl⟩
  | done n =>
    obtain rfl := eq_of_setCall h
    cases hd
  | crashed =>
    obtain rfl := eq_of_setCall h
    cases hd

theorem running_of_pingLoopProgress {l : Loop PingPass} {o : Registry × Progress PingPass Nat}
    (h : (pingLoopProgress i l o).calls[i]? = some c') (hd : d ∈ pingDirects c'.round) :
    ∃ pass, o = (o.1, .running pass) ∧ d ∈ pingDirects pass.pings ∧
      (pingLoopProgress i l o).history = o.1.history := by
  obtain ⟨w, progress⟩ := o
  cases progress with
  | running pass =>
    obtain rfl := eq_of_setCall h
    exact ⟨pass, rfl, hd, rfl⟩
  | done n =>
    obtain rfl := eq_of_setCall h
    cases hd
  | crashed =>
    obtain rfl := eq_of_setCall h
    cases hd

/-- The loop begins a round. -/
theorem pingMove_pingTick {l : Loop PingPass} (hc : r.calls[i]? = some (.pingLoop l))
    (hidle : l.pass = none) (h : (r.pingTick i l).calls[i]? = some c')
    (hd : d ∈ pingDirects c'.round) : PingMove r i v d := by
  obtain ⟨pass, hbegins, hmem, -⟩ := running_of_pingLoopProgress h hd
  have haway (s : SessionId) : r.posts s (.call i) = .away := by
    refine posts_of_no_directs hc ?_ s
    rw [Call.directs, hidle]
  obtain ⟨hnone, hbatch⟩ := mem_beginPings hbegins hmem
  exact .asked (haway d.session) hnone hbatch

/-- A call goes on and has a round then. -/
theorem pingMove_callStep (hc : r.calls[i]? = some c) (h : (r.callStep i c).calls[i]? = some c')
    (hd : d ∈ pingDirects c'.round) : PingMove r i (r.callStep i c) d := by
  have hleads := leads_callStep hc h
  have hpurpose := (Call.purpose?_of_mem_round hd).imp (hleads _) (hleads _)
  cases c with
  | pinging p =>
    obtain ⟨pass, hstep, hmem, hhistory⟩ := running_of_settleCall h hd
    exact .of_pingStep hc rfl hstep hmem hhistory
  | pingLoop l =>
    cases hpass : l.pass with
    | some p =>
      have hcalled : r.callStep i (.pingLoop l) =
          pingLoopProgress i l (r.pingStep (.call i) p) := by
        simp only [callStep, pingLoopStep, hpass]
      rw [hcalled] at h ⊢
      obtain ⟨pass, hstep, hmem, hhistory⟩ := running_of_pingLoopProgress h hd
      refine .of_pingStep hc ?_ hstep hmem hhistory
      rw [Call.round, hpass]
      rfl
    | none =>
      simp only [callStep, pingLoopStep, hpass] at h
      split at h
      · obtain rfl := eq_of_setCall h
        cases hd
      · exact pingMove_pingTick hc hpass h hd
  | _ => rcases hpurpose with hpurpose | hpurpose <;> cases hpurpose

/-- After any action each ping of the round of a call has come to where it stands in one of these
ways. -/
theorem pingMove_apply (hr : Settled T r) (action : Action)
    (h : (r.apply action).calls[i]? = some c') (hd : d ∈ pingDirects c'.round) :
    PingMove r i (r.apply action) d := by
  have hpurpose := Call.purpose?_of_mem_round hd
  rcases calls_apply hr action with ⟨cs, hcs, hserves⟩ | ⟨j, c, c'', hc, hset, hleads, hwho⟩
  · rcases Nat.lt_or_ge i r.calls.length with hlt | hge
    · rw [hcs, List.getElem?_append_left hlt] at h
      exact .stays h hd
    · -- the call has just been made, so that it is one for pings
      rw [hcs, List.getElem?_append_right hge] at h
      have hmakes := hpurpose.imp (hserves c' (List.mem_of_getElem? h) _)
        (hserves c' (List.mem_of_getElem? h) _)
      cases action with
      | ping =>
        obtain ⟨c, hc⟩ := exists_settleCall r.calls.length .pinging returnedCount
          ((r.addCall .crashed).beginPings (.call r.calls.length))
        have hcalls : r.ping.calls = r.calls ++ [c] :=
          calls_startCall (effect_beginPings (q := none)).calls hc
        obtain rfl : cs = [c] := List.append_cancel_left (hcs.symm.trans hcalls)
        obtain rfl : i = r.calls.length := by
          have hlt := (List.getElem?_eq_some_iff.mp h).1
          rw [List.length_singleton] at hlt
          omega
        obtain rfl : c = c' := by simpa using h
        have hstands : (settleCall r.calls.length .pinging returnedCount
            ((r.addCall .crashed).beginPings (.call r.calls.length))).calls[r.calls.length]? =
              some c := by
          show r.ping.calls[r.calls.length]? = some c
          rw [hcalls]
          exact List.getElem?_concat_length
        obtain ⟨pass, hbegins, hmem, -⟩ := running_of_settleCall hstands hd
        obtain ⟨hnone, hbatch⟩ := mem_beginPings hbegins hmem
        exact .asked (posts_of_no_call (Nat.le_refl _) _) hnone hbatch
      | _ => rcases hmakes with hmakes | hmakes <;> exact hmakes.elim
  · by_cases hij : j = i
    · subst hij
      have hlt := (List.getElem?_eq_some_iff.mp hc).1
      rcases hwho with ⟨rfl, hready⟩ | ⟨-, rfl | ⟨s, o, rfl, hrelease⟩⟩
      · rw [apply_call hc hready] at h ⊢
        exact pingMove_callStep hc h hd
      · show PingMove r j (r.tick j) d
        change (r.tick j).calls[j]? = some c' at h
        unfold tick at h
        split at h
        · rename_i l hl
          obtain rfl := Option.some.inj (hc.symm.trans hl)
          split at h
          · -- the loop that sweeps has no round
            have hsweeps := serves_sweepLoopProgress (K := (· = .sweepLoop)) rfl h
            rcases hpurpose with hpurpose | hpurpose <;> cases hsweeps _ hpurpose
          · exact .stays h hd
        · rename_i l hl
          split at h
          · rename_i hdue
            have hidle := Option.isNone_iff_eq_none.mp (Bool.and_eq_true_iff.mp hdue).1
            exact pingMove_pingTick hl hidle h hd
          · exact .stays h hd
        · exact .stays h hd
      · rw [hset, List.getElem?_set_self hlt] at h
        obtain rfl := Option.some.inj h
        cases c with
        | pinging p =>
          obtain ⟨ps, hps, rfl⟩ := Option.map_eq_some_iff.mp hrelease
          exact .of_releasePings hc rfl hps hd
        | pingLoop l =>
          obtain ⟨ps, hbind, rfl⟩ := Option.map_eq_some_iff.mp hrelease
          obtain ⟨p, hpass, hps⟩ := Option.bind_eq_some_iff.mp hbind
          refine .of_releasePings hc ?_ hps hd
          rw [Call.round, hpass]
          rfl
        | _ => rcases hpurpose with hpurpose | hpurpose <;> cases hleads _ hpurpose
    · rw [hset, List.getElem?_set_ne hij] at h
      exact .stays h hd

/-! ### A ping begins to be written -/

/-- A ping that begins to be written stood in line, and is written as its round has chosen it. -/
theorem directStep_begins (hstep : r.directStep p d = (w, .running d')) (hk : d.kind = .ping)
    (hnone : d.delivery = none) :
    ∃ x run, r.session? d.session = some x ∧ d' = { d with delivery := some run } ∧
      run.frame = r.hooks.process x d.batch ∧
      w.begun d.session = (.ping, run.frame) :: r.begun d.session := by
  unfold directStep at hstep
  rw [hnone] at hstep
  dsimp only at hstep
  cases hx : r.session? d.session with
  | none =>
    rw [hx] at hstep
    cases hstep
  | some x =>
    rw [hx] at hstep
    dsimp only at hstep
    split at hstep
    · cases hstep
    · have hkeep : (decide (d.kind = .ping) || d.batch.isPing) = true := by
        rw [hk]
        rfl
      rw [beginDelivery_of_fresh hx hkeep (.inl rfl)] at hstep
      obtain ⟨rfl, hd'⟩ := Prod.mk.inj hstep
      cases hd'
      refine ⟨x, _, rfl, rfl, rfl, ?_⟩
      rw [hk]
      exact List.filterMap_cons_some (if_pos rfl)

theorem ping_begins (hr : Settled T r) {action : Action}
    (h : (r.apply action).calls[i]? = some c') (hd' : d' ∈ pingDirects c'.round)
    (hrun : d'.delivery = some run) (hidle : ∀ e, r.posts d'.session (.call i) ≠ .busy e) :
    ∃ c d x, r.calls[i]? = some c ∧ d ∈ pingDirects c.round ∧ d.session = d'.session ∧
      d.delivery = none ∧ r.session? d'.session = some x ∧
      run.frame = r.hooks.process x d.batch ∧
      (r.apply action).begun d'.session = (.ping, run.frame) :: r.begun d'.session := by
  have hbusy {c : Call} {e : Direct} {f : Delivery} (hc : r.calls[i]? = some c)
      (he : e ∈ pingDirects c.round) (hs : e.session = d'.session)
      (hf : e.delivery = some f) : False := by
    have hpost := posts_of_mem_round hr hc he
    rw [Direct.post, hf, hs] at hpost
    exact hidle f hpost
  -- of the ways to come to a write only a step of a ping in line is no write already
  cases pingMove_apply hr action h hd' with
  | stays hc hd => exact (hbusy hc hd rfl hrun).elim
  | asked haway hdelivery hbatch =>
    rw [hdelivery] at hrun
    cases hrun
  | released hc hd hrun hsession hrun' => exact (hbusy hc hd hsession.symm hrun).elim
  | @steps c d w hc hd hready hstep hhistory =>
    cases hnone : d.delivery with
    | some f =>
      have hrunning : (r.directStep (.call i) d).2 = .running d' := by rw [hstep]
      have hfits := (hr.placed c (List.mem_of_getElem? hc)).directs.fit d (Call.mem_directs hd)
      obtain ⟨hsession, -⟩ := directStep_running hrunning hfits
      exact (hbusy hc hd hsession.symm hnone).elim
    | none =>
      obtain ⟨x, f, hx, rfl, hframe, hbegun⟩ :=
        directStep_begins hstep (kind_of_mem_round hr hc hd) hnone
      obtain rfl := Option.some.inj hrun
      refine ⟨c, d, x, hc, hd, rfl, hnone, hx, hframe, ?_⟩
      have hsame : (r.apply action).begun d.session = w.begun d.session :=
        congrArg (·.filterMap (Event.begunTo? d.session)) hhistory
      exact hsame.trans hbegun

/-! ### Every run -/

theorem not_mem_round_new (hc : (new config hooks).calls[i]? = some c) :
    d ∉ pingDirects c.round := by
  rw [(new_idle config hooks).2.2.2] at hc
  obtain ⟨period, rfl⟩ | ⟨period, rfl⟩ := mem_loops (List.mem_of_getElem? hc)
  · exact List.not_mem_nil
  · exact List.not_mem_nil

/-- A ping that stands in line has done so since its round asked for the gate, and has the frame
that was due then. -/
theorem asked_run {before : List Action}
    (hc : ((new config hooks).run before).calls[i]? = some c) (hd : d ∈ pingDirects c.round)
    (hnone : d.delivery = none) :
    ∃ asked a waited, before = asked ++ a :: waited ∧
      ((new config hooks).run asked).posts d.session (.call i) = .away ∧
      d.batch = ((new config hooks).run asked).lastData d.session ∧
      ∀ w, w <+: waited →
        ((new config hooks).run (asked ++ a :: w)).posts d.session (.call i) = .waiting := by
  have hsettled := settled_any_run config hooks
  -- from the last action back: the ping has just asked, or has stood in line before
  induction before using List.reverseRecOn generalizing c d with
  | nil => exact absurd hd (not_mem_round_new hc)
  | append_singleton before a ih =>
    have hwaiting : ((new config hooks).run (before ++ [a])).posts d.session (.call i) =
        .waiting := by
      rw [posts_of_mem_round (hsettled _) hc hd, Direct.post, hnone]
    rw [run_append] at hc
    cases pingMove_apply (hsettled before) a hc hd with
    | asked haway hdelivery hbatch =>
      refine ⟨before, a, [], rfl, haway, hbatch.trans (dueFrame_run before _), ?_⟩
      intro w hw
      obtain rfl := List.prefix_nil.mp hw
      exact hwaiting
    | released hcb hdb hrun hsession hrun' =>
      rw [hnone] at hrun'
      cases hrun'
    | @steps cb db w hcb hdb hready hstep hhistory =>
      -- a ping that has gone on does not stand in line any more
      have hprogress {o : Registry × Progress Delivery DeliveryOutcome}
          (ho : directProgress (.call i) db o = (w, .running d)) : d.delivery ≠ none := by
        obtain ⟨v, progress⟩ := o
        cases progress with
        | running run =>
          cases ho
          exact Option.some_ne_none run
        | done _ => cases ho
        | crashed => cases ho
      unfold directStep at hstep
      split at hstep
      · exact absurd hnone (hprogress hstep)
      · split at hstep
        · cases hstep
        · split at hstep
          · cases hstep
          · exact absurd hnone (hprogress hstep)
    | stays hcb hdb =>
      obtain ⟨asked, a', waited, rfl, haway, hbatch, hline⟩ := ih hcb hdb hnone
      refine ⟨asked, a', waited ++ [a], by simp, haway, hbatch, ?_⟩
      intro w hw
      rcases List.prefix_concat_iff.mp hw with rfl | hw
      · rw [← List.cons_append, ← List.append_assoc]
        exact hwaiting
      · exact hline w hw

/-- What a ping writes. In every run, when a ping to a subscriber begins to be written, it has stood
in line for the gate since the call it belongs to asked for it, and its frame is the data that had
been sent last when it asked. What has been sent meanwhile is not in it. -/
theorem ping_writes_data_sent_before_wait (config : Config) (hooks : Hooks)
    (before : List Action) (action : Action) {s : SessionId} {p : Party} {d : Delivery}
    (hbusy : ((new config hooks).run (before ++ [action])).posts s p = .busy d)
    (hping : d.kind = .ping)
    (hidle : ∀ e, ((new config hooks).run before).posts s p ≠ .busy e) :
    let r := (new config hooks).run before
    let v := (new config hooks).run (before ++ [action])
    v.begun s = (.ping, d.frame) :: r.begun s ∧
      ∃ i asked a waited, p = .call i ∧ before = asked ++ a :: waited ∧
        let u := (new config hooks).run asked
        u.posts s (.call i) = .away ∧
          (∀ w, w <+: waited → (u.run (a :: w)).posts s (.call i) = .waiting) ∧
          (∃ x, r.session? s = some x ∧ d.frame = hooks.process x (u.lastData s)) ∧
          ∃ meanwhile, r.dataSent s = meanwhile ++ u.dataSent s ∧
            r.lastData s = (meanwhile.head?).getD (u.lastData s) := by
  intro r v
  have hr : Settled (.any config hooks True) r := settled_any_run ..
  have hproper : ∀ h ∈ v.hands, h.Proper :=
    Traffic.Proper.transfers (a := ⟨new config hooks, 0⟩) (fun _ h => absurd h (by simp))
      (handsOver_new_run config hooks (before ++ [action]))
  have hhooks : r.hooks = hooks := by
    have hg := (handsOver_new_run config hooks before).grows
    exact hg.hooks.trans (new_idle config hooks).1
  have hrun : v = r.apply action := run_append _ before [action]
  obtain ⟨i, c', d', rfl, hc', hd', rfl, hdelivery⟩ := exists_round_of_busy hproper hbusy hping
  rw [hrun] at hc' ⊢
  obtain ⟨c, e, x, hc, he, hsession, hnone, hx, hframe, hbegun⟩ :=
    ping_begins hr hc' hd' hdelivery hidle
  obtain ⟨asked, a, waited, rfl, haway, hbatch, hline⟩ := asked_run hc he hnone
  rw [hsession] at haway hbatch hline
  refine ⟨hbegun, i, asked, a, waited, rfl, rfl, haway, ?_, ⟨x, hx, ?_⟩, ?_⟩
  · intro w hw
    have hnow := hline w hw
    rwa [run_append] at hnow
  · rw [hframe, hbatch, hhooks]
  · -- what was sent by then is the end of what has been sent now
    have hsettled := settled_any_run config hooks asked
    have hgrows := (handsOver_run hsettled (a :: waited)).grows
    obtain ⟨meanwhile, hsent⟩ := hgrows.dataSent d'.session
    have hsent' : r.dataSent d'.session =
        meanwhile ++ ((new config hooks).run asked).dataSent d'.session := by
      rw [hsent]
      exact congrArg (·.dataSent d'.session) (run_append _ asked (a :: waited))
    refine ⟨meanwhile, hsent', ?_⟩
    rw [lastData, hsent']
    cases meanwhile with
    | nil => rfl
    | cons b rest => rfl

/-- A ping that has waited for a write which was held begins to be written. -/
theorem ping_writes_data_sent_before_wait_of_held :
    let before := [.subscribe { sink := .scripted [.hold] }, .run (.call 1),
      .sendHistorical 0 ⟨[⟨5, ""⟩]⟩, .run (.call 2), .run (.call 2), .ping, .release 0 .ok,
      .run (.call 2)]
    let r := (new {} {}).run before
    let v := (new {} {}).run (before ++ [.run (.call 3)])
    ∃ d, v.posts 0 (.call 3) = .busy d ∧ d.kind = .ping ∧ r.posts 0 (.call 3) = .waiting ∧
      v.begun 0 = (.ping, d.frame) :: r.begun 0 ∧
      ∃ asked a waited, before = asked ++ a :: waited ∧
        d.frame = ((new {} {}).run asked).lastData 0 := by
  intro before r v
  have hwaits : r.posts 0 (.call 3) = .waiting := by decide +kernel
  have hbusy : v.posts 0 (.call 3) = .busy
      { kind := .ping, keepAlive := true, frame := ⟨[]⟩, begun := 0,
        point := .writing (.playing 0 .ok) } := by decide +kernel
  obtain ⟨hbegun, _, asked, a, waited, -, hsplit, -, -, ⟨_, -, hframe⟩, -⟩ :=
    ping_writes_data_sent_before_wait {} {} before (.run (.call 3)) hbusy rfl fun e he => by
      rw [show ((new {} {}).run before).posts 0 (.call 3) = .waiting from hwaits] at he
      cases he
  exact ⟨_, hbusy, rfl, hwaits, hbegun, asked, a, waited, hsplit, hframe⟩

/-- A ping is asked for while one batch is being written, and begins to be written when that is
over: with the batch before. -/
theorem ping_begins_with_data_before_last :
    let r := (new {} {}).run ([.subscribe { sink := .scripted [.ok, .hold] }, .run (.call 1),
      .sendHistorical 0 ⟨[⟨1, ""⟩]⟩, .run (.call 2), .run (.call 2),
      .sendHistorical 0 ⟨[⟨5, ""⟩]⟩, .run (.call 3), .run (.call 3), .ping, .release 0 .ok,
      .run (.call 3)])
    r.lastData 0 = ⟨[⟨5, ""⟩]⟩ ∧
      (r.apply (.run (.call 4))).begun 0 = (.ping, ⟨[⟨1, ""⟩]⟩) :: r.begun 0 := by
  intro r
  exact ⟨by decide +kernel, by decide +kernel⟩

end Registry

end Multicast
