import Multicast.Proofs.Isolation.Alike

/-! Work that visits subscribers one after the other: the offers of a live batch, and the removals of
a sweep. A subscriber notices its own visit and nothing of the others. -/

namespace Multicast

namespace Registry

/-- What leads from `r` to `v` happens beside the subscriber `s`. -/
structure Beside (s : SessionId) (r v : Registry) : Prop extends Steady r v where
  session? : v.session? s = r.session? s
  begun : v.begun s = r.begun s

/-- What leads from `r` to `v` visits some subscribers, and does `f` to each of them. -/
structure Visits (f : SessionId → Registry → Registry) (ss : List SessionId) (r v : Registry) :
    Prop where
  steady : Steady r v
  missed : ∀ s, s ∉ ss → Beside s r v
  met : ∀ s ∈ ss, ∃ u, Beside s r u ∧ Beside s (f s u) v

variable {r u v w r' v' : Registry} {s s' t : SessionId} {ss : List SessionId}
  {f : SessionId → Registry → Registry}

theorem Beside.refl (s : SessionId) (r : Registry) : Beside s r r := ⟨.refl r, rfl, rfl⟩

theorem Beside.trans (h : Beside s r u) (h' : Beside s u v) : Beside s r v :=
  ⟨h.toSteady.trans h'.toSteady, h'.session?.trans h.session?, h'.begun.trans h.begun⟩

theorem Within.beside (h : Within t r v) (hs : s ≠ t) : Beside s r v :=
  ⟨h.toSteady, h.session? s hs, h.begun s hs⟩

theorem Beside.note (h : Beside s r u) {e : Event} (he : e.begunTo? s = none) :
    Beside s r (u.note e) :=
  { h with begun := (List.filterMap_cons_none he).trans h.begun }

theorem Beside.setCall (h : Beside s r u) (i : Nat) (c : Call) : Beside s r (u.setCall i c) :=
  { h with }

theorem beside_callAfter (s : SessionId) (r : Registry) : Beside s r (r.callAfter s).1 := by
  unfold callAfter
  split
  · exact .refl s r
  · exact (Beside.refl s r).note rfl

theorem beside_noteReturn (s : SessionId) (r : Registry) (result : Except HookError Unit) :
    Beside s r (r.noteReturn s .hookFailed result) := by
  cases result with
  | ok _ => exact (Beside.refl s r).note rfl
  | error e => exact ((Beside.refl s r).note rfl).note rfl

/-- What happens beside a subscriber in two registries leaves it as it would stand. -/
theorem alike_beside {request : Subscription} {P : Party → Party → Prop}
    (h : Alike request P s s' r r') (hv : Beside s r v) (hv' : Beside s' r' v') :
    Alike request P s s' v v' where
  toAround := around_steady h.toAround hv.toSteady hv'.toSteady
  twin := by
    rw [hv.session?, hv'.session?]
    exact h.twin
  begun := by rw [hv.begun, hv'.begun, h.begun]

/-! ### Visits -/

namespace Visits

theorem nil (h : ∀ s, Beside s r v) : Visits f [] r v :=
  ⟨(h 0).toSteady, fun s _ => h s, nofun⟩

/-- What nobody notices may come first. -/
theorem of_beside (h : ∀ s, Beside s r u) (hv : Visits f ss u v) : Visits f ss r v where
  steady := (h 0).toSteady.trans hv.steady
  missed s hs := (h s).trans (hv.missed s hs)
  met s hs := by
    obtain ⟨w, hw, hlast⟩ := hv.met s hs
    exact ⟨w, (h s).trans hw, hlast⟩

/-- One visit, and those that follow. -/
theorem cons (hr : Steady r u) (h : ∀ s, s ≠ t → Beside s r u) (ht : Beside t (f t r) u)
    (hrest : Visits f ss u v) (hn : t ∉ ss) : Visits f (t :: ss) r v where
  steady := hr.trans hrest.steady
  missed s hs := by
    obtain ⟨hst, hs⟩ := not_or.mp (mt List.mem_cons.mpr hs)
    exact (h s hst).trans (hrest.missed s hs)
  met s hs := by
    rcases List.mem_cons.mp hs with rfl | hs
    · exact ⟨r, .refl s r, ht.trans (hrest.missed s hn)⟩
    · have hst : s ≠ t := fun heq => hn (heq ▸ hs)
      obtain ⟨w, hw, hv⟩ := hrest.met s hs
      exact ⟨w, (h s hst).trans hw, hv⟩

/-- Visits in two registries leave a subscriber as it would stand, if both visit it or both do
not. -/
theorem alike {request : Subscription} {P : Party → Party → Prop} {ss' : List SessionId}
    (hv : Visits f ss r v) (hv' : Visits f ss' r' v') (h : Alike request P s s' r r')
    (hmem : s ∈ ss ↔ s' ∈ ss')
    (hf : ∀ u u', Alike request P s s' u u' → Alike request P s s' (f s u) (f s' u')) :
    Alike request P s s' v v' := by
  by_cases hs : s ∈ ss
  · obtain ⟨u, hu, hlast⟩ := hv.met s hs
    obtain ⟨u', hu', hlast'⟩ := hv'.met s' (hmem.mp hs)
    exact alike_beside (hf u u' (alike_beside h hu hu')) hlast hlast'
  · have hs' : s' ∉ ss' := fun hin => hs (hmem.mpr hin)
    exact alike_beside h (hv.missed s hs) (hv'.missed s' hs')

end Visits

/-! ### Offers -/

theorem visits_offerAll (b : Batch Nat) (hn : ss.Nodup) :
    Visits (fun s r => (r.offer b s).1) ss r (offerAll b ss r).1 := by
  induction ss generalizing r with
  | nil => exact .nil fun s => .refl s r
  | cons t rest ih =>
    obtain ⟨hnew, hrest⟩ := List.nodup_cons.mp hn
    have hoffer : Within t r (r.offer b t).1 := within_offer
    have hall : (offerAll b (t :: rest) r).1 = (offerAll b rest (r.offer b t).1).1 := by
      rw [offerAll]
      rcases r.offer b t with ⟨w, taken⟩
      cases taken <;> rfl
    rw [hall]
    exact .cons hoffer.toSteady (fun s hs => hoffer.beside hs) (.refl t _) (ih hrest) hnew

/-- A batch that the subscriber does not want to see passes it by. -/
theorem offer_of_rejected {b : Batch Nat} {x : Session} (hx : r.session? s = some x)
    (hb : x.accepts b = false) : r.offer b s = (r, false) := by
  simp [offer, hx, hb]

theorem visits_publishLive (b : Batch Nat) (hn : r.members.Nodup) (hb : b.size = 1) :
    Visits (fun s r => (r.offer b s).1) r.members r (r.publishLive b).1 := by
  have hoffers := visits_offerAll (r := r) b hn
  simp only [publishLive, hb, if_true]
  exact ⟨{ hoffers.steady with }, fun s hs => { hoffers.missed s hs with }, fun s hs => by
    obtain ⟨u, hu, hlast⟩ := hoffers.met s hs
    exact ⟨u, hu, { hlast with }⟩⟩

/-! ### Removals of a sweep -/

/-- A callback that does nothing returns at once. -/
theorem callAfter_of_no_hooks (hh : r.hooks = {}) (s : SessionId) :
    (r.callAfter s).2 = ⟨r.now, .succeed⟩ := by
  unfold callAfter
  split
  · rfl
  · rw [hh]

/-- A sweep that goes on whenever it is ready comes to its end after one step for each subscriber
that it removes, and it removes all those that were to be removed. The call that sweeps stands at
`wrap` while a pass is under way, and at `answer` when it is over. -/
theorem visits_nextSweep {i : Nat} {wrap : SweepPass → Call} {answer : Nat → Call}
    (hstep : ∀ (u : Registry) (p : SweepPass), u.calls[i]? = some (wrap p) →
      p.hook.ready u.now = true →
        u.apply (.run (.call i)) = settleCall i wrap answer (u.sweepStep p))
    (hh : r.hooks = {}) (hi : i < r.calls.length) (hn : ss.Nodup)
    (hss : ∀ t ∈ ss, ∃ x, r.session? t = some x ∧ x.stage ≠ .removed) (removed : Nat) :
    Visits (fun s r => (r.detach s .cancelled).1) ss r
        ((settleCall i wrap answer (r.nextSweep removed ss)).run
          (List.replicate ss.length (.run (.call i)))) ∧
      ((settleCall i wrap answer (r.nextSweep removed ss)).run
        (List.replicate ss.length (.run (.call i)))).calls =
          r.calls.set i (answer (removed + ss.length)) := by
  induction ss generalizing r removed with
  | nil =>
    refine ⟨.nil fun s => ?_, ?_⟩
    · show Beside s r ((if removed > 0 then r.note (.swept removed) else r).setCall i _)
      split
      · exact ((Beside.refl s r).note rfl).setCall i _
      · exact (Beside.refl s r).setCall i _
    · show (if removed > 0 then r.note (.swept removed) else r).calls.set i _ = _
      split <;> rfl
  | cons t rest ih =>
    obtain ⟨hnew, hrest⟩ := List.nodup_cons.mp hn
    obtain ⟨x, hx, hstage⟩ := hss t List.mem_cons_self
    have hdetach : Within t r (r.detach t .cancelled).1 := within_detach .cancelled
    -- the removal of the first subscriber, and the call of its callback
    generalize hu : ((r.detach t .cancelled).1.callAfter t).1 = u
    have hwithin : Within t r u := hu ▸ hdetach.trans within_callAfter
    let pass : SweepPass := ⟨t, ⟨r.now, .succeed⟩, rest, removed⟩
    have hnext : r.nextSweep removed (t :: rest) = (u, .running pass) := by
      obtain ⟨es, _, hremoved⟩ := detach_eq hx hstage .cancelled
      have hfound : r.detach t .cancelled = ((r.detach t .cancelled).1, true) := by rw [hremoved]
      have hhook := callAfter_of_no_hooks (hdetach.hooks.trans hh) t
      rw [hdetach.now] at hhook
      rcases hcall : (r.detach t .cancelled).1.callAfter t with ⟨w, hook⟩
      rw [hcall] at hu hhook
      obtain rfl : w = u := hu
      obtain rfl : hook = ⟨r.now, .succeed⟩ := hhook
      rw [nextSweep, hfound]
      dsimp only
      rw [hcall]
    -- the callback returns in the next step, and the sweep goes on with the rest
    generalize hv : (u.setCall i (wrap pass)).noteReturn t .hookFailed (.ok ()) = v
    have hgoes : (u.setCall i (wrap pass)).apply (.run (.call i)) =
        settleCall i wrap answer (v.nextSweep (removed + 1) rest) := by
      have hlen : i < u.calls.length := by
        rw [hwithin.calls]
        exact hi
      have hstands : (u.setCall i (wrap pass)).calls[i]? = some (wrap pass) :=
        List.getElem?_set_self hlen
      have hready : pass.hook.ready (u.setCall i (wrap pass)).now = true :=
        decide_eq_true (Nat.le_of_eq hwithin.now.symm)
      rw [hstep _ pass hstands hready, ← hv]
      rfl
    have hcalls : v.calls = r.calls.set i (wrap pass) := by
      rw [← hv, ← hwithin.calls]
      rfl
    have hbeside (s : SessionId) (hs : s ≠ t) : Beside s r v := by
      rw [← hv]
      exact ((hwithin.beside hs).setCall i _).trans
        ((within_noteReturn (fun _ _ _ => rfl) (.ok ())).beside hs)
    have hvisit : Beside t (r.detach t .cancelled).1 v := by
      rw [← hv, ← hu]
      exact ((beside_callAfter t _).setCall i _).trans (beside_noteReturn t _ (.ok ()))
    have hsteady : Steady r v := hdetach.toSteady.trans hvisit.toSteady
    have hleft : ∀ s ∈ rest, ∃ y, v.session? s = some y ∧ y.stage ≠ .removed := by
      intro s hs
      have hst : s ≠ t := fun heq => hnew (heq ▸ hs)
      rw [(hbeside s hst).session?]
      exact hss s (List.mem_cons_of_mem t hs)
    have hlen : i < v.calls.length := by
      rw [hcalls, List.length_set]
      exact hi
    obtain ⟨hvisits, hend⟩ := ih (hsteady.hooks.trans hh) hlen hrest hleft (removed + 1)
    have hrun : (settleCall i wrap answer (r.nextSweep removed (t :: rest))).run
        (List.replicate (t :: rest).length (.run (.call i))) =
          (settleCall i wrap answer (v.nextSweep (removed + 1) rest)).run
            (List.replicate rest.length (.run (.call i))) := by
      rw [hnext, ← hgoes]
      rfl
    rw [hrun]
    refine ⟨.cons hsteady hbeside hvisit hvisits hnew, ?_⟩
    rw [hend, hcalls, List.set_set, List.length_cons, Nat.add_right_comm, Nat.add_assoc]

/-- The subscribers that a sweep is to remove are there, and not removed yet. -/
theorem exists_of_mem_cancelled {T : Terms} (hr : Settled T r) :
    ∀ t ∈ r.members.filter r.isCancelled, ∃ x, r.session? t = some x ∧ x.stage ≠ .removed :=
  fun t ht => (hr.sound.mem_iff t).mp (List.mem_filter.mp ht).1

/-- A call that sweeps removes all who are cancelled, one after the other, and returns. -/
theorem visits_sweep {T : Terms} (hr : Settled T r) (hh : r.hooks = {}) :
    Visits (fun s r => (r.detach s .cancelled).1) (r.members.filter r.isCancelled) r
        (r.run r.sweepActions) ∧
      ∃ c, (r.run r.sweepActions).calls = r.calls ++ [c] := by
  have hlen : r.calls.length < (r.addCall .crashed).calls.length := by simp [addCall]
  have hstep (u : Registry) (p : SweepPass)
      (hc : u.calls[r.calls.length]? = some (.sweeping p)) (hready : p.hook.ready u.now = true) :
      u.apply (.run (.call r.calls.length)) =
        settleCall r.calls.length .sweeping returnedCount (u.sweepStep p) := by
    simp only [apply, ready, step, hc, callReady, hready, if_true]
    rfl
  have hn : (r.members.filter r.isCancelled).Nodup := hr.sound.nodup.filter r.isCancelled
  have hrun : r.run r.sweepActions = Registry.run (settleCall r.calls.length .sweeping returnedCount
      ((r.addCall .crashed).nextSweep 0 (r.members.filter r.isCancelled)))
      (List.replicate (r.members.filter r.isCancelled).length (.run (.call r.calls.length))) := rfl
  obtain ⟨hvisits, hcalls⟩ := visits_nextSweep (r := r.addCall .crashed) hstep hh hlen hn
    (exists_of_mem_cancelled hr) 0
  have hadd (s : SessionId) : Beside s r (r.addCall .crashed) := { Beside.refl s r with }
  rw [hrun]
  refine ⟨.of_beside hadd hvisits,
    returnedCount (0 + (r.members.filter r.isCancelled).length), ?_⟩
  rw [hcalls]
  simp [addCall]

theorem run_replicate_of_idle {action : Action} (h : r.apply action = r) (n : Nat) :
    r.run (List.replicate n action) = r := by
  induction n with
  | zero => rfl
  | succ n ih =>
    rw [List.replicate_succ]
    show (r.apply action).run (List.replicate n action) = r
    rw [h, ih]

/-- A loop that is not due waits. -/
theorem run_sweepDue_of_early {l : Loop SweepPass} (hl : r.calls[0]? = some (.sweepLoop l))
    (hpass : l.pass = none) (hs : r.stopped = false) (hearly : ¬ l.next ≤ r.nanos) :
    r.run r.sweepDueActions = r := by
  have hidle : r.apply (.run (.call 0)) = r := by
    simp [apply, ready, hl, callReady, hpass, hs, hearly]
  exact run_replicate_of_idle hidle (_ + 1)

/-- A loop that is due removes all who are cancelled, one after the other, and waits again. -/
theorem visits_sweepDue {T : Terms} (hr : Settled T r) (hh : r.hooks = {}) {l : Loop SweepPass}
    (hl : r.calls[0]? = some (.sweepLoop l)) (hpass : l.pass = none) (hs : r.stopped = false)
    (hdue : l.next ≤ r.nanos) :
    Visits (fun s r => (r.detach s .cancelled).1) (r.members.filter r.isCancelled) r
        (r.run r.sweepDueActions) ∧
      (r.run r.sweepDueActions).calls =
        r.calls.set 0 (.sweepLoop { l with next := l.after r.nanos, pass := none }) := by
  have hprogress (k : Loop SweepPass) (o : Registry × Progress SweepPass Nat) :
      sweepLoopProgress 0 k o = settleCall 0 (fun p => .sweepLoop { k with pass := some p })
        (fun _ => .sweepLoop { k with pass := none }) o := by
    obtain ⟨w, progress⟩ := o
    cases progress <;> rfl
  have hstep (u : Registry) (p : SweepPass)
      (hc : u.calls[0]? = some (.sweepLoop { l with next := l.after r.nanos, pass := some p }))
      (hready : p.hook.ready u.now = true) : u.apply (.run (.call 0)) =
        settleCall 0 (fun p => .sweepLoop { l with next := l.after r.nanos, pass := some p })
          (fun _ => .sweepLoop { l with next := l.after r.nanos, pass := none })
          (u.sweepStep p) := by
    simp only [apply, ready, step, hc, callReady, hready, if_true]
    exact hprogress _ _
  have hbegins : r.apply (.run (.call 0)) =
      settleCall 0 (fun p => .sweepLoop { l with next := l.after r.nanos, pass := some p })
        (fun _ => .sweepLoop { l with next := l.after r.nanos, pass := none }) r.beginSweep := by
    simp only [apply, ready, step, hl, callReady, hpass, hs, hdue, decide_true, Bool.or_true,
      if_true, callStep, sweepLoopStep, Bool.false_eq_true, if_false]
    exact hprogress _ _
  have hrun : r.run r.sweepDueActions = Registry.run (settleCall 0
      (fun p => .sweepLoop { l with next := l.after r.nanos, pass := some p })
        (fun _ => .sweepLoop { l with next := l.after r.nanos, pass := none }) r.beginSweep)
      (List.replicate (r.members.filter r.isCancelled).length (.run (.call 0))) := by
    rw [← hbegins]
    rfl
  rw [hrun]
  exact visits_nextSweep hstep hh (List.getElem?_eq_some_iff.mp hl).1
    (hr.sound.nodup.filter r.isCancelled) (exists_of_mem_cancelled hr) 0

end Registry

end Multicast
