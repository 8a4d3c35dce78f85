import Multicast.Proofs.Registry.Passages
import Multicast.Proofs.Registry.Purpose

/-! The list of calls, action by action. An action adds calls at the end of the list, or one call
goes on; a call that unsubscribes or sweeps stays as it is until it goes on itself. -/

namespace Multicast

/-- Whether a call unsubscribes or sweeps, stands in line with one delivery, or is over. Such a call
changes only when it goes on. -/
def Call.Tracked : Call → Prop
  | .unsubscribing _ _ | .sweeping _ | .returned _ | .crashed => True
  | .sending d => d.delivery = none
  | _ => False

/-- Whether a call may change before it goes on itself: a loop is due, or a write of the call is
held and let go on from outside. -/
def Call.Movable : Call → Prop
  | .backfilling _ | .pinging _ | .sweepLoop _ | .pingLoop _ => True
  | .sending d => d.delivery ≠ none
  | _ => False

theorem Call.Tracked.not_movable {c : Call} (h : c.Tracked) : ¬ c.Movable := by
  cases c with
  | unsubscribing | sweeping | returned | crashed => exact id
  | sending d => exact fun hmoves => hmoves h
  | _ => exact h.elim

namespace Registry

variable {T : Terms} {r u v : Registry} {s : SessionId} {i : Nat} {c c' : Call}
  {cause : Option Cause} {gone called : List SessionId}

/-! ### Calls that are made -/

theorem Proceeds.exists_calls (h : Proceeds cause r i c v) : ∃ c', v.calls = r.calls.set i c' := by
  obtain ⟨gone, called, u, c', heffect, -, -, rfl⟩ := h
  exact ⟨c', by rw [setCall, heffect.calls]⟩

/-- A call that comes to its end at once is one that is added. -/
theorem setCall_addCall (r : Registry) (c c' : Call) :
    (r.addCall c).setCall r.calls.length c' = r.addCall c' := by
  simp [addCall, setCall]

/-- A call that is made comes last. -/
theorem calls_startCall {f : Nat → Registry → Registry} {c : Call}
    (hu : u.calls = (r.addCall .crashed).calls)
    (hf : f r.calls.length (r.addCall .crashed) = u.setCall r.calls.length c) :
    (r.startCall f).calls = r.calls ++ [c] := by
  rw [startCall, hf, setCall, hu]
  simp [addCall]

theorem exists_settleCall {σ α : Type} (i : Nat) (wrap : σ → Call) (answer : α → Call)
    (o : Registry × Progress σ α) : ∃ c, settleCall i wrap answer o = o.1.setCall i c := by
  obtain ⟨w, progress⟩ := o
  cases progress with
  | running st => exact ⟨wrap st, rfl⟩
  | done a => exact ⟨answer a, rfl⟩
  | crashed => exact ⟨.crashed, rfl⟩

/-- A sweep that has gone on stands as one that has counted whom it removed. -/
theorem settleCall_of_swept? {o : Registry × Progress SweepPass Nat} {n : Nat}
    (h : o.2.swept? = some n) :
    ∃ c, settleCall i .sweeping returnedCount o = o.1.setCall i c ∧ c.Swept n := by
  obtain ⟨w, progress⟩ := o
  cases progress with
  | running p => exact ⟨.sweeping p, rfl, Option.some.inj h⟩
  | done m => exact ⟨returnedCount m, rfl, Option.some.inj h⟩
  | crashed => cases h

theorem calls_unsubscribe (s : SessionId) :
    ∃ c, (r.unsubscribe s).calls = r.calls ++ [c] := by
  rcases unsubscribe_cases r s with ⟨u, heffect, heq⟩ | ⟨called, u, c, heffect, -, -, heq⟩
  · exact ⟨_, calls_startCall heffect.calls heq⟩
  · exact ⟨c, calls_startCall heffect.calls heq⟩

theorem calls_sweep : ∃ c, r.sweep.calls = r.calls ++ [c] := by
  obtain ⟨gone, heffect, _⟩ := effect_nextSweep (r := r.addCall .crashed) 0
    ((r.addCall .crashed).members.filter (r.addCall .crashed).isCancelled)
  obtain ⟨c, hc⟩ := exists_settleCall r.calls.length .sweeping returnedCount
    (r.addCall .crashed).beginSweep
  exact ⟨c, calls_startCall heffect.calls hc⟩

theorem calls_sendHistorical (s : SessionId) (b : Batch Nat) :
    ∃ c, (r.sendHistorical s b).calls = r.calls ++ [c] := by
  have hasked : Effect none [] [] (r.addCall .crashed)
    ((r.addCall .crashed).askGate s (.call r.calls.length)).1 := effect_askGate
  unfold sendHistorical
  cases hcancelled : (r.addCall .crashed).isCancelled s with
  | true => exact ⟨_, calls_startCall rfl (by simp only [hcancelled, if_true]; rfl)⟩
  | false =>
    rcases hgate : (r.addCall .crashed).askGate s (.call r.calls.length) with ⟨u, granted⟩
    rw [hgate] at hasked
    cases granted with
    | true =>
      exact ⟨_, calls_startCall hasked.calls
        (by simp only [hcancelled, hgate, Bool.false_eq_true, if_false]; rfl)⟩
    | false =>
      refine ⟨.returned (.ok (.flag false)),
        calls_startCall (u := u.count (·.batchPublished .historical 0)) hasked.calls ?_⟩
      simp only [hcancelled, hgate, Bool.false_eq_true, if_false]
      rfl

theorem calls_stop (hr : Settled T r) :
    ∃ cs, r.stop.calls = r.calls ++ cs ∧ ∀ c ∈ cs, c.Serves Action.stop.Makes := by
  unfold stop
  split
  · refine ⟨_, rfl, fun c hc => ?_⟩
    obtain rfl := List.mem_singleton.mp hc
    exact Call.serves_of_isOver rfl
  · obtain ⟨es, _, hevacuate⟩ := evacuate_eq hr.sound
    rw [hevacuate]
    refine ⟨_, List.append_assoc .., fun c hc => ?_⟩
    rcases List.mem_append.mp hc with hstop | hfarewell
    · obtain rfl := List.mem_singleton.mp hstop
      exact Call.serves_of_purpose? rfl trivial
    · obtain ⟨s, -, rfl⟩ := List.mem_map.mp hfarewell
      exact Call.serves_of_purpose? rfl trivial

/-! ### Every action -/

/-- A write that is let go on is one of a call that delivers, or of no call. -/
theorem calls_release (s : SessionId) (o : WriteOutcome) : (r.release s o).1.calls = r.calls ∨
    ∃ j c c', r.calls[j]? = some c ∧ (r.release s o).1.calls = r.calls.set j c' ∧
      c.Movable ∧ releaseCall? r.now s o c = some c' := by
  unfold release
  dsimp only
  split
  · exact .inl rfl
  · split
    · rename_i calls hcalls
      obtain ⟨j, c, c', hc, rfl, hcall⟩ := releaseCalls?_some hcalls
      refine .inr ⟨j, c, c', hc, rfl, ?_, hcall⟩
      cases c with
      | backfilling | pinging | pingLoop => trivial
      | sending d =>
        -- nothing is held while the delivery stands in line
        intro hwaits
        simp [releaseCall?, releaseDirect?, hwaits] at hcall
      | _ => cases hcall
    · exact .inl rfl

/-- An action adds calls at the end, made for its own purposes, or one call goes on and keeps to
its purpose. -/
theorem calls_apply (hr : Settled T r) (action : Action) :
    (∃ cs, (r.apply action).calls = r.calls ++ cs ∧ ∀ c ∈ cs, c.Serves action.Makes) ∨
      ∃ j c c', r.calls[j]? = some c ∧ (r.apply action).calls = r.calls.set j c' ∧ c.Leads c' ∧
        (action = .run (.call j) ∧ r.callReady j c = true ∨ c.Movable ∧ (action = .tick j ∨
          ∃ s o, action = .release s o ∧ releaseCall? r.now s o c = some c')) := by
  have hsame {K : Purpose → Prop} (h : (r.apply action).calls = r.calls) :
      ∃ cs, (r.apply action).calls = r.calls ++ cs ∧ ∀ c ∈ cs, c.Serves K :=
    ⟨[], by rw [h, List.append_nil], nofun⟩
  have hover {K : Purpose → Prop} {c : Call} (hc : c.isOver = true)
      (h : (r.apply action).calls = r.calls ++ [c]) :
      ∃ cs, (r.apply action).calls = r.calls ++ cs ∧ ∀ c ∈ cs, c.Serves K := by
    refine ⟨_, h, fun d hd => ?_⟩
    obtain rfl := List.mem_singleton.mp hd
    exact Call.serves_of_isOver hc
  have hmade {c : Call} (h : (r.apply action).calls = r.calls ++ [c])
      (hserves : c.Serves action.Makes) :
      ∃ cs, (r.apply action).calls = r.calls ++ cs ∧ ∀ c ∈ cs, c.Serves action.Makes := by
    refine ⟨_, h, fun d hd => ?_⟩
    obtain rfl := List.mem_singleton.mp hd
    exact hserves
  cases action with
  | run t =>
    cases hready : r.ready t with
    | false => exact .inl (hsame (by simp [apply, hready]))
    | true =>
      have hstep : r.apply (.run t) = r.step t := by simp [apply, hready]
      cases t with
      | worker s =>
        obtain ⟨gone, hgone⟩ := delivers_workerStep (r := r) (s := s)
        exact .inl (hsame (hstep ▸ hgone.calls))
      | call j =>
        cases hc : r.calls[j]? with
        | none => simp [ready, hc] at hready
        | some c =>
          simp only [ready, hc] at hready
          obtain ⟨c', hc'⟩ := (proceeds_callStep hr hc hready).exists_calls
          have hstands : (r.callStep j c).calls[j]? = some c' := by
            rw [hc', List.getElem?_set_self (List.getElem?_eq_some_iff.mp hc).1]
          refine .inr ⟨j, c, c', hc, ?_, leads_callStep hc hstands, .inl ⟨rfl, hready⟩⟩
          rw [hstep, step, hc]
          exact hc'
  | tick j =>
    show _ ∨ ∃ j c c', _ ∧ (r.tick _).calls = _ ∧ _
    unfold tick
    split
    · rename_i l hc
      have hlt := (List.getElem?_eq_some_iff.mp hc).1
      split
      · obtain ⟨c', hc'⟩ := (proceeds_sweepTick (r := r) (i := j) l l).exists_calls
        refine .inr ⟨j, _, c', hc, hc', ?_, .inr ⟨trivial, .inl rfl⟩⟩
        exact serves_sweepLoopProgress rfl (hc' ▸ List.getElem?_set_self hlt)
      · rename_i hdue
        exact .inl (hsame (by simp [apply, tick, hc, hdue]))
    · rename_i l hc
      have hlt := (List.getElem?_eq_some_iff.mp hc).1
      split
      · obtain ⟨c', hc'⟩ := (proceeds_pingTick (r := r) (i := j) l l).exists_calls
        refine .inr ⟨j, _, c', hc, hc', ?_, .inr ⟨trivial, .inl rfl⟩⟩
        exact serves_pingLoopProgress rfl (hc' ▸ List.getElem?_set_self hlt)
      · rename_i hdue
        exact .inl (hsame (by simp [apply, tick, hc, hdue]))
    · rename_i hloop hloop'
      exact .inl (hsame (by simp only [apply, tick]))
  | elapse ms => exact .inl (hsame rfl)
  | cancel token => exact .inl (hsame rfl)
  | activate s => exact .inl (hsame (effect_activate (q := none) s).calls)
  | publishLive b => exact .inl (hsame (effect_publishLive (q := none)).calls)
  | dropReceiver s => exact .inl (hsame rfl)
  | receive s =>
    refine .inl (hsame ?_)
    show (((r.receive? s).map (·.2)).getD r).calls = r.calls
    unfold receive?
    split
    · rename_i k hk
      cases k.receive? with
      | none => rfl
      | some received => rfl
    · rfl
  | subscribe request =>
    cases hstopped : r.stopped with
    | true =>
      exact .inl (hover (c := .returned (.error .stopped)) rfl
        (by simp only [apply, subscribe, hstopped, if_true]; rfl))
    | false =>
      exact .inl (hmade (c := .subscribing request ⟨r.now, r.hooks.before request⟩)
        (by simp only [apply, subscribe, hstopped, Bool.false_eq_true, if_false]; rfl)
        (Call.serves_of_purpose? rfl trivial))
  | publishHistorical b =>
    obtain ⟨c, hc⟩ := exists_settleCall r.calls.length .backfilling returnedCount
      ((r.addCall .crashed).nextBackfill (.call r.calls.length) b 0 (r.addCall .crashed).members)
    have hcalls : (r.publishHistorical b).calls = r.calls ++ [c] :=
      calls_startCall (effect_nextBackfill (q := none) 0 _).calls hc
    refine .inl (hmade hcalls (serves_startCall hcalls fun c' hc' => ?_))
    exact serves_settleCall hc' (fun _ => Call.serves_of_purpose? rfl trivial) fun _ => rfl
  | sendHistorical s b =>
    obtain ⟨c, hc⟩ := calls_sendHistorical (r := r) s b
    exact .inl (hmade hc (serves_sendHistorical hc trivial))
  | unsubscribe s =>
    obtain ⟨c, hc⟩ := calls_unsubscribe (r := r) s
    exact .inl (hmade hc (serves_unsubscribe hc rfl))
  | sweep =>
    obtain ⟨c, hc⟩ := calls_sweep (r := r)
    refine .inl (hmade hc (serves_startCall hc fun c' hc' => ?_))
    exact serves_settleCall hc' (fun _ => Call.serves_of_purpose? rfl trivial) fun _ => rfl
  | ping =>
    obtain ⟨c, hc⟩ := exists_settleCall r.calls.length .pinging returnedCount
      ((r.addCall .crashed).beginPings (.call r.calls.length))
    have hcalls : r.ping.calls = r.calls ++ [c] :=
      calls_startCall (effect_beginPings (q := none)).calls hc
    refine .inl (hmade hcalls (serves_startCall hcalls fun c' hc' => ?_))
    exact serves_settleCall hc' (fun _ => Call.serves_of_purpose? rfl trivial) fun _ => rfl
  | stop => exact .inl (calls_stop hr)
  | drop =>
    refine .inl (hsame ?_)
    show r.drop.calls = r.calls
    unfold drop
    split
    · rfl
    · obtain ⟨es, _, hevacuate⟩ := evacuate_eq hr.sound
      rw [hevacuate]
      rfl
  | release s o =>
    rcases calls_release (r := r) s o with hcalls | ⟨j, c, c', hc, hcalls, hmoves, hrelease⟩
    · exact .inl (hsame hcalls)
    · exact .inr ⟨j, c, c', hc, hcalls, leads_releaseCall? hrelease,
        .inr ⟨hmoves, .inr ⟨s, o, rfl, hrelease⟩⟩⟩
  | awaitRemoval s =>
    exact .inl (hmade (c := .awaitingRemoval s) rfl (Call.serves_of_purpose? rfl rfl))

theorem length_calls_le (hr : Settled T r) (action : Action) :
    r.calls.length ≤ (r.apply action).calls.length := by
  rcases calls_apply hr action with ⟨cs, hcs, -⟩ | ⟨j, c, c', -, hset, -⟩
  · rw [hcs, List.length_append]
    exact Nat.le_add_right _ _
  · rw [hset, List.length_set]

/-- A call that nothing moves from outside stays as it is until it goes on. -/
theorem call_stays (hr : Settled T r) (hc : r.calls[i]? = some c) (hm : ¬ c.Movable)
    {action : Action} (ha : action ≠ .run (.call i)) : (r.apply action).calls[i]? = some c := by
  have hlt : i < r.calls.length := (List.getElem?_eq_some_iff.mp hc).1
  rcases calls_apply hr action with ⟨cs, hcs, -⟩ | ⟨j, d, d', hd, hset, -, hwho⟩
  · rw [hcs, List.getElem?_append_left hlt]
    exact hc
  · have hj : j ≠ i := by
      rintro rfl
      obtain rfl := Option.some.inj (hd.symm.trans hc)
      rcases hwho with ⟨hrun, -⟩ | ⟨hmoves, -⟩
      · exact ha hrun
      · exact hm hmoves
    rw [hset, List.getElem?_set_ne hj]
    exact hc

/-- Departures by a sweep with a number come only from the call or loop with that number. -/
theorem sweep_of_mem_departuresAt (hc : r.calls[i]? = some c) (ht : c.Tracked)
    {action : Action} (ha : action ≠ .run (.call i)) :
    ∀ d ∈ r.departuresAt action, d.cause ≠ .sweep i := by
  have hlt : i < r.calls.length := (List.getElem?_eq_some_iff.mp hc).1
  intro d hd hcause
  have hact := (mem_departuresAt.mp hd).1
  rw [hcause] at hact
  rcases cause?_cases hact with ⟨-, h⟩ | ⟨j, -, hj, h⟩ | ⟨-, h⟩ | ⟨-, h⟩ | ⟨-, h⟩ | ⟨-, h⟩
  · cases h
  · obtain rfl : i = j := Cause.sweep.inj (h.resolve_left nofun)
    -- no loop stands there, so that nothing happens
    obtain rfl := hj.resolve_left ha
    have hsame : r.apply (.tick i) = r := by
      cases c with
      | unsubscribing | sweeping | sending | returned | crashed => simp only [apply, tick, hc]
      | _ => exact ht.elim
    rw [departuresAt_of_idle hsame] at hd
    cases hd
  · cases h
  · have hlength : i = r.calls.length := Cause.sweep.inj h
    omega
  · cases h
  · cases h

/-- A call that unsubscribes or sweeps stays as it is and removes nobody, or it goes on. -/
theorem tracked_apply (hr : Settled T r) (hc : r.calls[i]? = some c) (ht : c.Tracked)
    (action : Action) :
    ((r.apply action).calls[i]? = some c ∧ ∀ d ∈ r.departuresAt action, d.cause ≠ .sweep i) ∨
      action = .run (.call i) ∧ r.callReady i c = true := by
  by_cases ha : action = .run (.call i)
  · subst ha
    cases hready : r.callReady i c with
    | true => exact .inr ⟨rfl, rfl⟩
    | false =>
      have hsame := apply_call_of_waiting hc hready
      refine .inl ⟨by rw [hsame]; exact hc, ?_⟩
      intro d hd
      rw [departuresAt_of_idle hsame] at hd
      cases hd
  · exact .inl ⟨call_stays hr hc ht.not_movable ha, sweep_of_mem_departuresAt hc ht ha⟩

/-- A call that has come to its end stays there. -/
theorem over_apply (hr : Settled T r) (hc : r.calls[i]? = some c) (h : c.isOver = true)
    (action : Action) : (r.apply action).calls[i]? = some c := by
  have htracked : c.Tracked := by
    cases c with
    | returned | crashed => trivial
    | _ => cases h
  rcases tracked_apply hr hc htracked action with ⟨hsame, -⟩ | ⟨rfl, hready⟩
  · exact hsame
  · cases c with
    | returned | crashed => cases hready
    | _ => cases h

/-- A call that goes on stands at what follows from it. -/
theorem goesOn_apply (hr : Settled T r) (hc : r.calls[i]? = some c)
    (hready : r.callReady i c = true) : ∃ gone called c', c.Follows gone called c' ∧
      (r.apply (.run (.call i))).calls[i]? = some c' ∧
      ∃ u, Effect ((c.cause? i).bind Cause.reason?) gone called r u ∧
        r.apply (.run (.call i)) = u.setCall i c' := by
  have hsteps := apply_call hc hready
  obtain ⟨gone, called, u, c', heffect, hfollows, -, heq⟩ := proceeds_callStep hr hc hready
  refine ⟨gone, called, c', hfollows, ?_, u, heffect, hsteps.trans heq⟩
  rw [hsteps, heq, setCall]
  refine List.getElem?_set_self ?_
  rw [heffect.calls]
  exact (List.getElem?_eq_some_iff.mp hc).1

end Registry

end Multicast
