import Multicast.Proofs.Registry.CallList

/-! Which calls attend to a subscriber that is removed: those that take leave of it, and the sweep
that runs its callback. A call begins to attend to a subscriber only in the step that removes it. -/

namespace Multicast

/-- The subscriber to which a call attends: it takes leave of the subscriber, or has swept it and
runs its callback. -/
def Call.attended? : Call → Option SessionId
  | .unsubscribing s _ | .farewell s _ => some s
  | .sweeping p => some p.session
  | .sweepLoop l => l.pass.map SweepPass.session
  | _ => none

/-- A call that attends to a subscriber did so before, or it sweeps. -/
theorem Call.Leads.attended {c c' : Call} {s : SessionId} (h : c.Leads c')
    (hs : c'.attended? = some s) : c.attended? = some s ∨ (∃ p, c = .sweeping p) ∨
      ∃ l, c = .sweepLoop l := by
  cases c' with
  | unsubscribing t f =>
    have hpurpose : c.purpose? = some (.unsubscribe t) := h _ rfl
    cases c with
    | unsubscribing t' f' =>
      obtain rfl := Purpose.unsubscribe.inj (Option.some.inj hpurpose)
      exact .inl hs
    | _ => cases hpurpose
  | farewell t f =>
    have hpurpose : c.purpose? = some (.farewell t) := h _ rfl
    cases c with
    | farewell t' f' =>
      obtain rfl := Purpose.farewell.inj (Option.some.inj hpurpose)
      exact .inl hs
    | _ => cases hpurpose
  | sweeping p =>
    have hpurpose : c.purpose? = some .sweep := h _ rfl
    cases c with
    | sweeping p' => exact .inr (.inl ⟨p', rfl⟩)
    | _ => cases hpurpose
  | sweepLoop l =>
    have hpurpose : c.purpose? = some .sweepLoop := h _ rfl
    cases c with
    | sweepLoop l' => exact .inr (.inr ⟨l', rfl⟩)
    | _ => cases hpurpose
  | _ => cases hs

namespace Registry

/-- The call with a number attends to a subscriber. -/
def AttendsTo (r : Registry) (i : Nat) (s : SessionId) : Prop :=
  ∃ c, r.calls[i]? = some c ∧ c.attended? = some s

/-- What leads from `r` to `v` removes a subscriber. -/
def Removes (r v : Registry) (s : SessionId) : Prop := r.isGone s = false ∧ v.isGone s = true

variable {T : Terms} {r u v : Registry} {s : SessionId} {x : Session} {i : Nat} {c c' : Call}
  {config : Config} {hooks : Hooks} {action : Action}

/-! ### Sweeps -/

/-- A sweep that has come to a callback has just removed the subscriber. -/
theorem nextSweep_running {removed : Nat} {ss : List SessionId} {p : SweepPass}
    (h : (r.nextSweep removed ss).2 = .running p) :
    r.Removes (r.nextSweep removed ss).1 p.session := by
  -- those who are not found are passed over; the first who is removed is the one
  induction ss with
  | nil => cases h
  | cons s rest ih =>
    rw [nextSweep] at h ⊢
    rcases detach_cases r s .cancelled with ⟨x, hx, hs, htrue⟩ | hsame
    · have hgone := Effect.detach_callAfter hx hs .cancelled
      have hpair : r.detach s .cancelled = ((r.detach s .cancelled).1, true) := by
        rw [← htrue]
      rw [hpair] at h ⊢
      cases h
      exact ⟨hgone.fresh s List.mem_cons_self, (hgone.gone_iff s).mpr (.inr List.mem_cons_self)⟩
    · rw [hsame] at h ⊢
      exact ih h

theorem sweepStep_running {pass p : SweepPass} (h : (r.sweepStep pass).2 = .running p) :
    p.session = pass.session ∨ r.Removes (r.sweepStep pass).1 p.session := by
  unfold sweepStep at h ⊢
  split at h
  · cases h
    exact .inl rfl
  · cases h
  · rename_i result hstep
    obtain ⟨hbefore, hafter⟩ := nextSweep_running h
    have hsame : (r.noteReturn pass.session .hookFailed result).isGone p.session =
        r.isGone p.session := by
      rw [isGone, session?_noteReturn, isGone]
    rw [hsame] at hbefore
    exact .inr ⟨hbefore, hafter⟩

/-- A sweep under way attends to the subscriber at whose callback it stands. -/
theorem attended_settleCall {wrap : SweepPass → Call} {answer : Nat → Call}
    (hw : ∀ p, (wrap p).attended? = some p.session) (ha : ∀ n, (answer n).attended? = none)
    {o : Registry × Progress SweepPass Nat} (hc : (settleCall i wrap answer o).calls[i]? = some c')
    (hs : c'.attended? = some s) : ∃ p, o.2 = .running p ∧ p.session = s ∧
      (settleCall i wrap answer o).isGone s = o.1.isGone s := by
  obtain ⟨w, progress⟩ := o
  cases progress with
  | running p =>
    rw [eq_of_setCall hc, hw p] at hs
    exact ⟨p, rfl, Option.some.inj hs, rfl⟩
  | done n =>
    rw [eq_of_setCall hc, ha n] at hs
    cases hs
  | crashed =>
    rw [eq_of_setCall hc] at hs
    cases hs

/-- The loop settles like a call that is never over. -/
theorem sweepLoopProgress_eq (i : Nat) (l : Loop SweepPass)
    (o : Registry × Progress SweepPass Nat) : sweepLoopProgress i l o =
      settleCall i (fun p => .sweepLoop { l with pass := some p })
        (fun _ => .sweepLoop { l with pass := none }) o := by
  obtain ⟨w, progress⟩ := o
  cases progress with
  | running | done | crashed => rfl

theorem attended_sweepLoopProgress {l : Loop SweepPass} {o : Registry × Progress SweepPass Nat}
    (hc : (sweepLoopProgress i l o).calls[i]? = some c') (hs : c'.attended? = some s) :
    ∃ p, o.2 = .running p ∧ p.session = s ∧
      (sweepLoopProgress i l o).isGone s = o.1.isGone s := by
  rw [sweepLoopProgress_eq] at hc ⊢
  exact attended_settleCall (fun _ => rfl) (fun _ => rfl) hc hs

theorem removes_sweepTick {l : Loop SweepPass} (hc : (r.sweepTick i l).calls[i]? = some c')
    (hs : c'.attended? = some s) : r.Removes (r.sweepTick i l) s := by
  obtain ⟨p, hp, rfl, hsame⟩ := attended_sweepLoopProgress hc hs
  obtain ⟨hbefore, hafter⟩ := nextSweep_running hp
  exact ⟨hbefore, hsame.trans hafter⟩

/-- A call that goes on attends to whom it attended, or to a subscriber that it removes. -/
theorem attended_callStep (hc : r.calls[i]? = some c) (hc' : (r.callStep i c).calls[i]? = some c')
    (hs : c'.attended? = some s) : c.attended? = some s ∨ r.Removes (r.callStep i c) s := by
  rcases (leads_callStep hc hc').attended hs with hsame | ⟨p, rfl⟩ | ⟨l, rfl⟩
  · exact .inl hsame
  · obtain ⟨p', hp', rfl, hgone⟩ := attended_settleCall (fun _ => rfl) (fun _ => rfl) hc' hs
    refine (sweepStep_running hp').imp (fun h => congrArg some h.symm) ?_
    rintro ⟨hbefore, hafter⟩
    exact ⟨hbefore, hgone.trans hafter⟩
  · unfold callStep sweepLoopStep at hc' ⊢
    cases hl : l.pass with
    | some pass =>
      simp only [hl] at hc' ⊢
      obtain ⟨p', hp', rfl, hgone⟩ := attended_sweepLoopProgress hc' hs
      refine (sweepStep_running hp').imp (fun h => ?_) ?_
      · rw [Call.attended?, hl, h]
        rfl
      · rintro ⟨hbefore, hafter⟩
        exact ⟨hbefore, hgone.trans hafter⟩
    | none =>
      simp only [hl] at hc' ⊢
      split at hc'
      · rw [eq_of_setCall hc'] at hs
        cases hs
      · rename_i hopen
        rw [if_neg hopen]
        exact .inr (removes_sweepTick hc' hs)

/-! ### Every action -/

/-- The call that stops an open registry removes everybody who is registered, and waits for the
farewells that come right after it, one for each. -/
theorem exists_stop_eq (hr : Settled T r) (hopen : r.stopped = false) :
    ∃ metrics history, r.stop = { r with
      sessions := r.sessions.mapIdx fun s x => if s ∈ r.members then x.remove else x
      members := []
      stopped := true
      metrics := metrics
      history := history
      calls := r.calls ++ .stopping {
        count := r.members.length
        deadline := r.now + r.config.removalTimeout.millis
        waiting := (List.range r.members.length).map (r.calls.length + 1 + ·) } ::
          r.members.map (.farewell · .fresh) } := by
  obtain ⟨es, -, hevacuate⟩ := evacuate_eq hr.sound
  refine ⟨(r.metrics.setSessions 0).sessionsRemoved .shutdown r.members.length, es ++ r.history, ?_⟩
  unfold stop
  rw [hopen, hevacuate]
  simp only [Bool.false_eq_true, if_false, count, addCall, List.append_assoc,
    List.singleton_append]

/-- Whoever was registered is there as one who is removed, when the registry has stopped. -/
theorem session?_stop (hr : Settled T r) (hopen : r.stopped = false) (hs : s ∈ r.members)
    (hx : r.session? s = some x) : r.stop.session? s = some x.remove := by
  obtain ⟨metrics, history, hstop⟩ := exists_stop_eq hr hopen
  rw [hstop]
  show (r.sessions.mapIdx fun s x => if s ∈ r.members then x.remove else x)[s]? = _
  rw [List.getElem?_mapIdx, show r.sessions[s]? = some x from hx, Option.map_some, if_pos hs]

theorem removes_stop (hr : Settled T r) (hopen : r.stopped = false) (hs : s ∈ r.members) :
    r.Removes r.stop s := by
  obtain ⟨x, hx, hstage⟩ := (hr.sound.mem_iff s).mp hs
  refine ⟨Bool.eq_false_iff.mpr (mt (isGone_of_session? hx).mp hstage), ?_⟩
  exact isGone_iff.mpr ⟨x.remove, session?_stop hr hopen hs hx, rfl⟩

theorem removes_unsubscribe {f : Farewell}
    (hc : (r.unsubscribe s).calls = r.calls ++ [.unsubscribing s f]) :
    r.Removes (r.unsubscribe s) s := by
  have hstands : (r.unsubscribe s).calls[r.calls.length]? = some (.unsubscribing s f) := by
    rw [hc]
    exact List.getElem?_concat_length
  rcases unsubscribe_cases r s with ⟨u, -, heq⟩ | ⟨called, u, d, heffect, -, -, heq⟩
  · rw [heq] at hstands
    cases eq_of_setCall hstands
  · rw [heq]
    exact ⟨heffect.fresh s List.mem_cons_self,
      (heffect.gone_iff s).mpr (.inr List.mem_cons_self)⟩

theorem removes_sweep (hc : r.sweep.calls = r.calls ++ [c]) (hs : c.attended? = some s) :
    r.Removes r.sweep s := by
  have hstands : r.sweep.calls[r.calls.length]? = some c := by
    rw [hc]
    exact List.getElem?_concat_length
  obtain ⟨p, hp, rfl, hgone⟩ := attended_settleCall (fun _ => rfl) (fun _ => rfl) hstands hs
  obtain ⟨hbefore, hafter⟩ := nextSweep_running hp
  exact ⟨hbefore, hgone.trans hafter⟩

theorem removes_of_mem_stop (hr : Settled T r) {cs : List Call} (hcs : r.stop.calls = r.calls ++ cs)
    (hc : c ∈ cs) (hs : c.attended? = some s) : r.Removes r.stop s := by
  cases hstopped : r.stopped with
  | true =>
    have hnew : r.stop.calls = r.calls ++ [.returned (.ok .nothing)] := by
      simp only [stop, hstopped, if_true]
      rfl
    rw [List.append_cancel_left (hcs.symm.trans hnew), List.mem_singleton] at hc
    rw [hc] at hs
    cases hs
  | false =>
    obtain ⟨metrics, history, hstop⟩ := exists_stop_eq hr hstopped
    have hnew := congrArg Registry.calls hstop
    rw [List.append_cancel_left (hcs.symm.trans hnew)] at hc
    rcases List.mem_cons.mp hc with rfl | hc
    · cases hs
    · obtain ⟨t, ht, rfl⟩ := List.mem_map.mp hc
      obtain rfl := Option.some.inj hs
      exact removes_stop hr hstopped ht

/-- A call that is made and attends to a subscriber removes it. -/
theorem removes_of_made (hr : Settled T r) {cs : List Call}
    (hcs : (r.apply action).calls = r.calls ++ cs) (hc : c ∈ cs) (hmade : c.Serves action.Makes)
    (hs : c.attended? = some s) : r.Removes (r.apply action) s := by
  have hone {d : Call} (hd : (r.apply action).calls = r.calls ++ [d]) : d = c := by
    rw [List.append_cancel_left (hcs.symm.trans hd), List.mem_singleton] at hc
    exact hc.symm
  cases c with
  | unsubscribing t f =>
    obtain rfl := Option.some.inj hs
    have hmakes : action.Makes (.unsubscribe t) := hmade _ rfl
    cases action with
    | unsubscribe t' =>
      obtain rfl : t = t' := hmakes
      obtain ⟨d, hd⟩ := calls_unsubscribe (r := r) t
      obtain rfl := hone hd
      exact removes_unsubscribe hd
    | _ => exact hmakes.elim
  | farewell t f =>
    have hmakes : action.Makes (.farewell t) := hmade _ rfl
    cases action with
    | stop => exact removes_of_mem_stop hr hcs hc hs
    | _ => exact hmakes.elim
  | sweeping p =>
    have hmakes : action.Makes .sweep := hmade _ rfl
    cases action with
    | sweep =>
      obtain ⟨d, hd⟩ := calls_sweep (r := r)
      obtain rfl := hone hd
      exact removes_sweep hd hs
    | _ => exact hmakes.elim
  | sweepLoop l =>
    have hmakes : action.Makes .sweepLoop := hmade _ rfl
    cases action with
    | _ => exact hmakes.elim
  | _ => cases hs

/-- A call attends to a subscriber only from the step in which the subscriber is removed. -/
theorem attendsTo_apply (hr : Settled T r) (h : (r.apply action).AttendsTo i s) :
    r.AttendsTo i s ∨ r.Removes (r.apply action) s := by
  obtain ⟨c', hc', hs⟩ := h
  rcases calls_apply hr action with ⟨cs, hcs, hmade⟩ | ⟨j, c, d, hc, hset, hleads, hwho⟩
  · -- calls were made
    by_cases hi : i < r.calls.length
    · rw [hcs, List.getElem?_append_left hi] at hc'
      exact .inl ⟨c', hc', hs⟩
    · have hmem : c' ∈ cs := by
        rw [hcs, List.getElem?_append_right (Nat.le_of_not_lt hi)] at hc'
        exact List.mem_of_getElem? hc'
      exact .inr (removes_of_made hr hcs hmem (hmade c' hmem) hs)
  · -- one call has moved; of those only sweeps turn to others
    by_cases hij : j = i
    · subst hij
      have hd : d = c' := by
        rw [hset, List.getElem?_set_self (List.getElem?_eq_some_iff.mp hc).1] at hc'
        exact Option.some.inj hc'
      subst hd
      rcases hleads.attended hs with hsame | hsweeps
      · exact .inl ⟨c, hc, hsame⟩
      · rcases hwho with ⟨rfl, hready⟩ | ⟨hmoves, rfl | ⟨t, o, rfl, hrelease⟩⟩
        · rw [apply_call hc hready] at hc' ⊢
          exact (attended_callStep hc hc' hs).imp_left fun h => ⟨c, hc, h⟩
        · rcases hsweeps with ⟨p, rfl⟩ | ⟨l, rfl⟩
          · exact hmoves.elim
          · have htick : r.apply (.tick j) = if l.pass.isNone && decide (l.next ≤ r.nanos) then
                r.sweepTick j l else r := by
              simp only [apply, tick, hc]
            rw [htick] at hc' ⊢
            split at hc'
            · rename_i hdue
              rw [if_pos hdue]
              exact .inr (removes_sweepTick hc' hs)
            · exact .inl ⟨d, hc', hs⟩
        · rcases hsweeps with ⟨p, rfl⟩ | ⟨l, rfl⟩
          · cases hrelease
          · cases hrelease
    · rw [hset, List.getElem?_set_ne hij] at hc'
      exact .inl ⟨c', hc', hs⟩

/-! ### Every run -/

theorem isGone_apply (hr : Settled T r) (hgone : r.isGone s = true) :
    (r.apply action).isGone s = true :=
  ((passage_apply hr action).gone_iff s).mpr (.inl hgone)

theorem isGone_run (hr : Settled (.any config hooks True) r) (hgone : r.isGone s = true)
    (actions : List Action) : (r.run actions).isGone s = true :=
  ((passage_run hr actions).gone_iff s).mpr (.inl hgone)

/-- Nobody begins to attend to a subscriber that is removed. -/
theorem attendsTo_run (hr : Settled (.any config hooks True) r) (hgone : r.isGone s = true)
    {actions : List Action} (h : (r.run actions).AttendsTo i s) : r.AttendsTo i s := by
  induction actions generalizing r with
  | nil => exact h
  | cons action rest ih =>
    have hnext := (reaches_apply hr action.keeps_any).settled
    have hlater := ih hnext (isGone_apply hr hgone) h
    refine (attendsTo_apply hr hlater).resolve_right ?_
    rintro ⟨hbefore, -⟩
    rw [hgone] at hbefore
    cases hbefore

/-- Calls attend only to subscribers that are removed. -/
theorem isGone_of_attendsTo {actions : List Action}
    (h : ((new config hooks).run actions).AttendsTo i s) :
    ((new config hooks).run actions).isGone s = true := by
  have hrun {r : Registry} (hr : Settled (.any config hooks True) r)
      (hall : ∀ i s, r.AttendsTo i s → r.isGone s = true) (actions : List Action) :
      ∀ i s, (r.run actions).AttendsTo i s → (r.run actions).isGone s = true := by
    induction actions generalizing r with
    | nil => exact hall
    | cons action rest ih =>
      refine ih (reaches_apply hr action.keeps_any).settled fun j t ht => ?_
      rcases attendsTo_apply hr ht with hbefore | hremoved
      · exact isGone_apply hr (hall j t hbefore)
      · exact hremoved.2
  refine hrun (settled_new rfl rfl) ?_ actions i s h
  rintro j t ⟨c, hc, ht⟩
  -- the loops have no pass under way at the start
  rw [(new_idle config hooks).2.2.2] at hc
  rcases mem_loops (List.mem_of_getElem? hc) with ⟨_, rfl⟩ | ⟨_, rfl⟩
  · cases ht
  · cases ht

end Registry

end Multicast
