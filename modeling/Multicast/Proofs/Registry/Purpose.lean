import Multicast.Proofs.Registry.Steps

/-! What calls are made for. A call keeps to its purpose until it is over, and an action makes calls
for its own purposes only. -/

namespace Multicast

/-- What a call is made for. -/
inductive Purpose
  | subscribe
  | backfill
  | send
  | unsubscribe (s : SessionId)
  | sweep
  | ping
  | stop
  | awaitRemoval (s : SessionId)
  | farewell (s : SessionId)
  | sweepLoop
  | pingLoop
  deriving DecidableEq, Repr

/-- Whether an action makes calls for a purpose. -/
def Action.Makes : Action → Purpose → Prop
  | .subscribe _, .subscribe | .publishHistorical _, .backfill | .sendHistorical _ _, .send
  | .sweep, .sweep | .ping, .ping | .stop, .stop | .stop, .farewell _ => True
  | .unsubscribe s, .unsubscribe t | .awaitRemoval s, .awaitRemoval t => t = s
  | _, _ => False

namespace Call

/-- The purpose of a call that is not over. -/
def purpose? : Call → Option Purpose
  | .subscribing _ _ => some .subscribe
  | .backfilling _ => some .backfill
  | .sending _ => some .send
  | .unsubscribing s _ => some (.unsubscribe s)
  | .sweeping _ => some .sweep
  | .pinging _ => some .ping
  | .stopping _ => some .stop
  | .awaitingRemoval s => some (.awaitRemoval s)
  | .farewell s _ => some (.farewell s)
  | .sweepLoop _ => some .sweepLoop
  | .pingLoop _ => some .pingLoop
  | .returned _ | .crashed => none

/-- Whether a call is over or its purpose is among `K`. -/
def Serves (K : Purpose → Prop) (c : Call) : Prop := ∀ p, c.purpose? = some p → K p

/-- Whether a call may come to a point: its end, or one of the same purpose. -/
def Leads (c c' : Call) : Prop := c'.Serves (c.purpose? = some ·)

variable {K : Purpose → Prop} {c : Call}

theorem Leads.refl (c : Call) : c.Leads c := fun _ => id

theorem serves_of_isOver (h : c.isOver = true) : c.Serves K := by
  intro p hp
  cases c with
  | returned | crashed => cases hp
  | _ => cases h

theorem serves_of_purpose? {p : Purpose} (hp : c.purpose? = some p) (hK : K p) : c.Serves K := by
  intro q hq
  obtain rfl := Option.some.inj (hp.symm.trans hq)
  exact hK

end Call

namespace Registry

variable {r u : Registry} {i : Nat} {c c' : Call} {s : SessionId} {K : Purpose → Prop}

/-! ### Calls that go on -/

/-- The call that was set is the one that is found. -/
theorem eq_of_setCall {d : Call} (h : (u.setCall i d).calls[i]? = some c') : c' = d := by
  have hlt : i < u.calls.length := by
    have hset := (List.getElem?_eq_some_iff.mp h).1
    rwa [setCall, List.length_set] at hset
  have hset : (u.setCall i d).calls[i]? = some d := List.getElem?_set_self hlt
  exact Option.some.inj (h.symm.trans hset)

theorem serves_setCall {d : Call} (h : (u.setCall i d).calls[i]? = some c') (hd : d.Serves K) :
    c'.Serves K := by
  rw [eq_of_setCall h]
  exact hd

/-- A call that is set to its end. -/
theorem serves_over {d : Call} (h : (u.setCall i d).calls[i]? = some c') (hd : d.isOver = true) :
    c'.Serves K :=
  serves_setCall h (Call.serves_of_isOver hd)

theorem serves_settleCall {σ α : Type} {wrap : σ → Call} {answer : α → Call}
    {o : Registry × Progress σ α} (h : (settleCall i wrap answer o).calls[i]? = some c')
    (hw : ∀ st, (wrap st).Serves K) (ha : ∀ a, (answer a).isOver = true) : c'.Serves K := by
  obtain ⟨v, progress⟩ := o
  cases progress with
  | running st => exact serves_setCall h (hw st)
  | done a => exact serves_over h (ha a)
  | crashed => exact serves_over h rfl

theorem serves_subscribeStep {request : Subscription} {hook : HookRun} (hK : K .subscribe)
    (h : (r.subscribeStep i request hook).calls[i]? = some c') : c'.Serves K := by
  unfold subscribeStep at h
  split at h
  · exact serves_setCall h (Call.serves_of_purpose? rfl hK)
  · exact serves_over h rfl
  · exact serves_over h rfl
  · split at h
    · exact serves_over h rfl
    · exact serves_over h rfl

theorem serves_sent {o : Registry × Progress Direct Bool} (hK : K .send)
    (h : (sent i o).calls[i]? = some c') : c'.Serves K := by
  obtain ⟨v, progress⟩ := o
  cases progress with
  | running d => exact serves_setCall h (Call.serves_of_purpose? rfl hK)
  | done reached => exact serves_over h rfl
  | crashed => exact serves_over h rfl

theorem serves_unsubscribeProgress {o : Registry × Progress Farewell (Except HookError Unit)}
    (hK : K (.unsubscribe s)) (h : (unsubscribeProgress i s o).calls[i]? = some c') :
    c'.Serves K := by
  obtain ⟨v, progress⟩ := o
  cases progress with
  | running f => exact serves_setCall h (Call.serves_of_purpose? rfl hK)
  | crashed => exact serves_over h rfl
  | done result =>
    cases result with
    | ok _ => exact serves_over h rfl
    | error e => exact serves_over h rfl

theorem serves_farewellProgress {o : Registry × Progress Farewell (Except HookError Unit)}
    (hK : K (.farewell s)) (h : (farewellProgress i s o).calls[i]? = some c') : c'.Serves K := by
  obtain ⟨v, progress⟩ := o
  cases progress with
  | running f => exact serves_setCall h (Call.serves_of_purpose? rfl hK)
  | crashed => exact serves_over h rfl
  | done result => exact serves_over h rfl

theorem serves_sweepLoopProgress {l : Loop SweepPass} {o : Registry × Progress SweepPass Nat}
    (hK : K .sweepLoop) (h : (sweepLoopProgress i l o).calls[i]? = some c') : c'.Serves K := by
  obtain ⟨v, progress⟩ := o
  cases progress with
  | running pass => exact serves_setCall h (Call.serves_of_purpose? rfl hK)
  | done n => exact serves_setCall h (Call.serves_of_purpose? rfl hK)
  | crashed => exact serves_over h rfl

theorem serves_pingLoopProgress {l : Loop PingPass} {o : Registry × Progress PingPass Nat}
    (hK : K .pingLoop) (h : (pingLoopProgress i l o).calls[i]? = some c') : c'.Serves K := by
  obtain ⟨v, progress⟩ := o
  cases progress with
  | running pass => exact serves_setCall h (Call.serves_of_purpose? rfl hK)
  | done n => exact serves_setCall h (Call.serves_of_purpose? rfl hK)
  | crashed => exact serves_over h rfl

theorem serves_sweepLoopStep {l : Loop SweepPass} (hK : K .sweepLoop)
    (h : (r.sweepLoopStep i l).calls[i]? = some c') : c'.Serves K := by
  unfold sweepLoopStep at h
  split at h
  · exact serves_sweepLoopProgress hK h
  · split at h
    · exact serves_over h rfl
    · exact serves_sweepLoopProgress hK h

theorem serves_pingLoopStep {l : Loop PingPass} (hK : K .pingLoop)
    (h : (r.pingLoopStep i l).calls[i]? = some c') : c'.Serves K := by
  unfold pingLoopStep at h
  split at h
  · exact serves_pingLoopProgress hK h
  · split at h
    · exact serves_over h rfl
    · exact serves_pingLoopProgress hK h

theorem serves_stopStep {p : StopPoint} (hK : K .stop)
    (h : (r.stopStep i p).calls[i]? = some c') : c'.Serves K := by
  unfold stopStep at h
  dsimp only at h
  split at h
  · exact serves_over h rfl
  · split at h
    · exact serves_over h rfl
    · exact serves_setCall h (Call.serves_of_purpose? rfl hK)

/-- A call that goes on keeps to its purpose until it is over. -/
theorem leads_callStep (hc : r.calls[i]? = some c)
    (h : (r.callStep i c).calls[i]? = some c') : c.Leads c' := by
  cases c with
  | subscribing request hook => exact serves_subscribeStep rfl h
  | backfilling b =>
    exact serves_settleCall h (fun _ => Call.serves_of_purpose? rfl rfl) fun _ => rfl
  | sending d => exact serves_sent rfl h
  | unsubscribing s f => exact serves_unsubscribeProgress rfl h
  | farewell s f => exact serves_farewellProgress rfl h
  | sweeping p =>
    exact serves_settleCall h (fun _ => Call.serves_of_purpose? rfl rfl) fun _ => rfl
  | pinging p =>
    exact serves_settleCall h (fun _ => Call.serves_of_purpose? rfl rfl) fun _ => rfl
  | stopping p => exact serves_stopStep rfl h
  | awaitingRemoval s => exact serves_over h rfl
  | sweepLoop l => exact serves_sweepLoopStep rfl h
  | pingLoop l => exact serves_pingLoopStep rfl h
  | returned answer =>
    obtain rfl := Option.some.inj (hc.symm.trans h)
    exact .refl _
  | crashed =>
    obtain rfl := Option.some.inj (hc.symm.trans h)
    exact .refl _

/-- A call with a write that is let go on keeps to its purpose. -/
theorem leads_releaseCall? {now : Nat} {o : WriteOutcome}
    (h : releaseCall? now s o c = some c') : c.Leads c' := by
  cases c with
  | backfilling b =>
    obtain ⟨d, -, rfl⟩ := Option.map_eq_some_iff.mp h
    exact .refl _
  | sending d =>
    obtain ⟨d', -, rfl⟩ := Option.map_eq_some_iff.mp h
    exact .refl _
  | pinging p =>
    obtain ⟨ps, -, rfl⟩ := Option.map_eq_some_iff.mp h
    exact .refl _
  | pingLoop l =>
    obtain ⟨ps, -, rfl⟩ := Option.map_eq_some_iff.mp h
    exact .refl _
  | _ => cases h

/-! ### Calls that are made -/

/-- What is so of the call that a function sets is so of the call that is made by it. -/
theorem serves_startCall {f : Nat → Registry → Registry}
    (h : (r.startCall f).calls = r.calls ++ [c])
    (hf : ∀ c', (f r.calls.length (r.addCall .crashed)).calls[r.calls.length]? = some c' →
      c'.Serves K) : c.Serves K := by
  apply hf c
  show (r.startCall f).calls[r.calls.length]? = some c
  rw [h]
  exact List.getElem?_concat_length

theorem serves_unsubscribe (h : (r.unsubscribe s).calls = r.calls ++ [c])
    (hK : K (.unsubscribe s)) : c.Serves K := by
  refine serves_startCall h fun c' hc' => ?_
  split at hc'
  · exact serves_over hc' rfl
  · exact serves_unsubscribeProgress hK hc'

theorem serves_sendHistorical {b : Batch Nat}
    (h : (r.sendHistorical s b).calls = r.calls ++ [c]) (hK : K .send) : c.Serves K := by
  refine serves_startCall h fun c' hc' => ?_
  split at hc'
  · exact serves_over hc' rfl
  · split at hc'
    · exact serves_setCall hc' (Call.serves_of_purpose? rfl hK)
    · exact serves_sent hK hc'

end Registry

end Multicast
