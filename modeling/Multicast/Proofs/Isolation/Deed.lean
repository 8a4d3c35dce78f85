import Multicast.Proofs.Isolation.Deal
import Multicast.Proofs.Registry.Line
import Multicast.Proofs.Registry.Release

/-! The deeds of one name in two registries. What belongs to the name stands afterwards as it would,
and nothing else notices. A held write that is let go on is one of the worker or one of the call that
holds the gate: since the lines at the gate answer to each other, so do the calls at their heads. -/

namespace Multicast

/-- What leads from `r` to `v` is confined to the subscriber `t` and to the calls in the list, and
may add calls. -/
structure Registry.Confined (t : SessionId) (is : List Nat) (r v : Registry) : Prop
    extends Registry.Steady r v where
  session? : ∀ s, s ≠ t → v.session? s = r.session? s
  begun : ∀ s, s ≠ t → v.begun s = r.begun s
  calls : ∀ i c, i ∉ is → r.calls[i]? = some c → v.calls[i]? = some c

variable {request : Subscription} {s s' : SessionId} {i i' now : Nat} {o : WriteOutcome}
  {is is' : List Nat} {c c' d : Call} {r r' u v v' : Registry} {e e' : Entry} {x : Session}
  {T T' : Terms}

namespace Registry

theorem Within.confined (h : Within s r v) : Confined s is r v where
  toSteady := h.toSteady
  session? := h.session?
  begun := h.begun
  calls i c _ hc := by
    rw [h.calls]
    exact hc

/-- Work within a subscriber, after which one of the calls in the list goes on. -/
theorem Within.confined_setCall (h : Within s r u) (hi : i ∈ is) (c : Call) :
    Confined s is r (u.setCall i c) :=
  { (h.confined : Confined s is r u) with
    calls := fun j d hj hd => by
      have hji : i ≠ j := fun heq => hj (heq ▸ hi)
      show (u.calls.set i c)[j]? = some d
      rw [List.getElem?_set_ne hji, h.calls]
      exact hd }

/-- Work within a subscriber by a call that is made for it. -/
theorem Within.confined_addCall (h : Within s (r.addCall .crashed) u) (c : Call) :
    Confined s is r (u.setCall r.calls.length c) where
  toSteady := { h.toSteady with }
  session? := h.session?
  begun := h.begun
  calls j d _ hd := by
    have hlt := (List.getElem?_eq_some_iff.mp hd).1
    show (u.calls.set r.calls.length c)[j]? = some d
    rw [List.getElem?_set_ne (Nat.ne_of_gt hlt), h.calls]
    exact (List.getElem?_append_left hlt).trans hd

/-- The call that has the place of one that was made for a name, in another registry. -/
theorem exists_matched (hlen : is'.length = is.length) {k : Nat} (hk : is[k]? = some i) :
    ∃ i', is'[k]? = some i' ∧ Matched is is' (.call i) (.call i') := by
  have hlt : k < is'.length := hlen ▸ (List.getElem?_eq_some_iff.mp hk).1
  exact ⟨_, List.getElem?_eq_getElem hlt, .call hk (List.getElem?_eq_getElem hlt)⟩

/-- A call that was made for a name goes on in both registries, and nothing else notices. -/
theorem standing_goesOn (h : Standing request e e' r r')
    (hm : Matched e.calls e'.calls (.call i) (.call i'))
    (hd : Deals request (Matched e.calls e'.calls) e.session e'.session i i' r r' v v') :
    Standing request e e' v v' ∧ Confined e.session e.calls r v ∧
      Confined e'.session e'.calls r' v' := by
  refine ⟨h.deals hm hd, ?_⟩
  obtain ⟨hi, hi'⟩ := hm.mem
  obtain ⟨u, u', c, c', hu, hu', rfl, rfl, _, _⟩ := hd
  exact ⟨hu.confined_setCall hi c, hu'.confined_setCall hi' c'⟩

/-! ### Held writes -/

/-- Those who deal with a subscriber stand in the line at its gate. -/
def Gated (r : Registry) : Prop :=
  ∀ s x, r.session? s = some x → Lane.Gated ⟨x, r.posts s, r.log s⟩

/-- Only the call that holds the gate of a subscriber has a write to it that is held. -/
theorem holds_of_releaseCall? (hr : Settled T r) (hg : r.Gated) (hx : r.session? s = some x)
    (hc : r.calls[i]? = some c) (h : releaseCall? now s o c = some d) :
    x.queue.gate.holds (.call i) = true := by
  obtain ⟨run, run', _, hgoes, _⟩ := releaseCall?_some (T := T) (r := r) h
  obtain ⟨hpost, _⟩ := hgoes.posts (hr.placed c (List.mem_of_getElem? hc)).directs.nodup
  exact (hg s x hx).holds (.call i) run ((congrFun (posts_call hc) s).trans hpost)

theorem releaseCall?_of_releaseCalls?_eq_none {cs : List Call}
    (h : releaseCalls? now s o cs = none) : ∀ c ∈ cs, releaseCall? now s o c = none := by
  induction cs with
  | nil => exact nofun
  | cons a rest ih =>
    rw [releaseCalls?] at h
    cases ha : releaseCall? now s o a with
    | some a' =>
      rw [ha] at h
      cases h
    | none =>
      rw [ha] at h
      intro c hc
      rcases List.mem_cons.mp hc with rfl | hc
      · exact ha
      · exact ih (Option.map_eq_none_iff.mp h) c hc

theorem releaseCalls?_eq_none (hr : Settled T r) (hg : r.Gated) (hx : r.session? s = some x)
    (hnone : ∀ i, x.queue.gate.line.head? ≠ some (.call i)) :
    releaseCalls? now s o r.calls = none := by
  cases hcs : releaseCalls? now s o r.calls with
  | none => rfl
  | some cs =>
    obtain ⟨i, c, d, hc, _, hd⟩ := releaseCalls?_some hcs
    exact absurd (Gate.holds_iff.mp (holds_of_releaseCall? hr hg hx hc hd)) (hnone i)

/-- Whether a write of a call is let go on is up to the call that holds the gate. -/
theorem releaseCalls?_eq_map (hr : Settled T r) (hg : r.Gated) (hx : r.session? s = some x)
    (hi : x.queue.gate.holds (.call i) = true) (hc : r.calls[i]? = some c) :
    releaseCalls? now s o r.calls = (releaseCall? now s o c).map (r.calls.set i) := by
  cases hcs : releaseCalls? now s o r.calls with
  | none =>
    rw [releaseCall?_of_releaseCalls?_eq_none hcs c (List.mem_of_getElem? hc)]
    rfl
  | some cs =>
    obtain ⟨j, a, d, ha, rfl, hd⟩ := releaseCalls?_some hcs
    -- the call with the held write holds the gate as well
    have hj := Gate.holds_iff.mp (holds_of_releaseCall? hr hg hx ha hd)
    obtain rfl : j = i := by simpa using hj.symm.trans (Gate.holds_iff.mp hi)
    obtain rfl := Option.some.inj (ha.symm.trans hc)
    rw [hd]
    rfl

/-- Calls that stand as they would are let go on in both registries or in neither. -/
theorem rel_releaseCall? (h : c.Twin s s' c') (now : Nat) (o : WriteOutcome) :
    Option.Rel (Call.Twin s s') (releaseCall? now s o c) (releaseCall? now s' o c') := by
  cases h with
  | sending b kind run =>
    simp only [releaseCall?, releaseDirect?, if_true]
    cases run.bind (release? now o) with
    | none => exact .none
    | some run' => exact .some (.sending b kind (some run'))
  | unsubscribing f => exact .none
  | returned a => exact .none
  | crashed => exact .none

/-- A write of a call that is held is let go on in both registries, or there is none in either. -/
theorem standing_releaseCalls? (h : Standing request e e' r r') (hr : Settled T r) (hg : r.Gated)
    (hr' : Settled T' r') (hg' : r'.Gated) (now : Nat) (o : WriteOutcome) :
    releaseCalls? now e.session o r.calls = none ∧
        releaseCalls? now e'.session o r'.calls = none ∨
      ∃ i i' d d', Matched e.calls e'.calls (.call i) (.call i') ∧ d.Twin e.session e'.session d' ∧
        releaseCalls? now e.session o r.calls = some (r.calls.set i d) ∧
        releaseCalls? now e'.session o r'.calls = some (r'.calls.set i' d') := by
  obtain ⟨x, x', hx, hx', ht⟩ := h.alike.twin
  obtain ⟨g, hqueue, hline⟩ := ht.queue
  have hline' : List.Forall₂ (Matched e.calls e'.calls) x.queue.gate.line x'.queue.gate.line := by
    rw [hqueue]
    exact hline
  -- the heads of the two lines answer to each other
  -- at most one call has the gate, so that it does not matter in which order calls are searched
  cases hl : x.queue.gate.line with
  | nil =>
    rw [hl] at hline'
    have hl' := List.forall₂_nil_left_iff.mp hline'
    exact .inl ⟨releaseCalls?_eq_none hr hg hx (by simp [hl]),
      releaseCalls?_eq_none hr' hg' hx' (by simp [hl'])⟩
  | cons p rest =>
    rw [hl] at hline'
    obtain ⟨p', rest', hp, _, hl'⟩ := List.forall₂_cons_left_iff.mp hline'
    cases p with
    | worker =>
      cases hp
      exact .inl ⟨releaseCalls?_eq_none hr hg hx (by simp [hl]),
      releaseCalls?_eq_none hr' hg' hx' (by simp [hl'])⟩
    | call i =>
      obtain ⟨i', rfl⟩ : ∃ i', p' = .call i' := by
        cases hp
        exact ⟨_, rfl⟩
      obtain ⟨c, c', hc, hc', hcc⟩ := h.calls i i' hp
      have hhead : x.queue.gate.holds (.call i) = true := Gate.holds_iff.mpr (by rw [hl]; rfl)
      have hhead' : x'.queue.gate.holds (.call i') = true := Gate.holds_iff.mpr (by rw [hl']; rfl)
      rw [releaseCalls?_eq_map hr hg hx hhead hc, releaseCalls?_eq_map hr' hg' hx' hhead' hc']
      have hrel := rel_releaseCall? hcc now o
      generalize releaseCall? now e.session o c = a at hrel
      generalize releaseCall? now e'.session o c' = a' at hrel
      cases hrel with
      | none => exact .inl ⟨rfl, rfl⟩
      | some hd => exact .inr ⟨i, i', _, _, hp, hd, rfl, rfl⟩

/-- A held write to a subscriber is let go on in both registries. -/
theorem standing_release (h : Standing request e e' r r') (hr : Settled T r) (hg : r.Gated)
    (hr' : Settled T' r') (hg' : r'.Gated) (o : WriteOutcome) :
    Standing request e e' (r.release e.session o).1 (r'.release e'.session o).1 ∧
      Confined e.session e.calls r (r.release e.session o).1 ∧
      Confined e'.session e'.calls r' (r'.release e'.session o).1 := by
  obtain ⟨x, x', hx, hx', ht⟩ := h.alike.twin
  have hworker : x'.worker = x.worker := by cases ht; rfl
  simp only [release, hx, hx', Option.map_some, hworker, h.alike.now]
  split
  · rename_i run _
    exact ⟨h.within (within_setWorker _) (within_setWorker _) (alike_setWorker h.alike _),
      (within_setWorker _).confined, (within_setWorker _).confined⟩
  · rcases standing_releaseCalls? h hr hg hr' hg' r.now o with
      ⟨hnone, hnone'⟩ | ⟨i, i', d, d', hm, hd, hset, hset'⟩
    · rw [hnone, hnone']
      exact ⟨h, (Within.refl r).confined, (Within.refl r').confined⟩
    · have hkept : { r' with now := r.now, calls := r'.calls.set i' d' } = r'.setCall i' d' := by
        rw [← h.alike.now]
        rfl
      rw [hset, hset']
      exact standing_goesOn h hm ⟨r, r', d, d', .refl r, .refl r', rfl, hkept, h.alike, hd⟩

/-! ### Any deed -/

/-- A deed for a name leaves what belongs to it as it would stand, and nothing else notices it. -/
theorem standing_deed (h : Standing request e e' r r') (hr : Settled T r) (hg : r.Gated)
    (hr' : Settled T' r') (hg' : r'.Gated) (deed : Deed) :
    Standing request (e.after r deed) (e'.after r' deed) (r.run (e.actions deed))
        (r'.run (e'.actions deed)) ∧
      Confined e.session e.calls r (r.run (e.actions deed)) ∧
      Confined e'.session e'.calls r' (r'.run (e'.actions deed)) := by
  have hP := h.biUnique
  have hwork {v v' : Registry} (hv : Within e.session r v) (hv' : Within e'.session r' v')
      (ha : Alike request (Matched e.calls e'.calls) e.session e'.session v v') :
      Standing request e e' v v' ∧ Confined e.session e.calls r v ∧
        Confined e'.session e'.calls r' v' :=
    ⟨h.within hv hv' ha, hv.confined, hv'.confined⟩
  have hmade {v v' : Registry} (hd : Deals request (Matched (e.calls ++ [r.calls.length])
      (e'.calls ++ [r'.calls.length])) e.session e'.session r.calls.length r'.calls.length
      (r.addCall .crashed) (r'.addCall .crashed) v v') :
      Standing request { e with calls := e.calls ++ [r.calls.length] }
          { e' with calls := e'.calls ++ [r'.calls.length] } v v' ∧
        Confined e.session e.calls r v ∧ Confined e'.session e'.calls r' v' := by
    refine ⟨h.addCall.deals (matched_last h.length) hd, ?_⟩
    obtain ⟨u, u', d, d', hu, hu', rfl, rfl, _, _⟩ := hd
    exact ⟨hu.confined_addCall d, hu'.confined_addCall d'⟩
  cases deed with
  | activate => exact hwork within_activate within_activate (alike_activate h.alike)
  | release o => exact standing_release h hr hg hr' hg' o
  | receive => exact hwork within_receive within_receive (alike_receive h.alike)
  | dropReceiver => exact hwork within_dropReceiver within_dropReceiver (alike_dropReceiver h.alike)
  | work =>
    have hready : r'.workerReady e'.session = r.workerReady e.session :=
      alike_workerReady hP .worker h.alike
    have hrun (u : Registry) (s : SessionId) : u.run [.run (.worker s)] =
        if u.workerReady s = true then u.workerStep s else u := rfl
    simp only [Entry.actions, hrun, hready]
    split
    · exact hwork within_workerStep within_workerStep (alike_workerStep hP .worker h.alike)
    · exact hwork (.refl r) (.refl r') h.alike
  | sendHistorical b =>
    refine hmade (deals_sendHistorical (h.alike.mono fun _ _ => matched_append _ _) ?_ b)
    exact matched_last h.length
  | unsubscribe => exact hmade (deals_unsubscribe (h.alike.mono fun _ _ => matched_append _ _))
  | resume k =>
    cases hk : e.calls[k]? with
    | none =>
      have hk' : e'.calls[k]? = none := by
        rw [List.getElem?_eq_none_iff] at hk ⊢
        rw [h.length]
        exact hk
      simp only [Entry.actions, hk, hk']
      exact hwork (.refl r) (.refl r') h.alike
    | some i =>
      obtain ⟨i', hk', hm⟩ := exists_matched h.length hk
      obtain ⟨c, c', hc, hc', ht⟩ := h.calls i i' hm
      have hready := alike_callReady hP h.alike hm ht
      have hrun {u : Registry} {j : Nat} {a : Call} (ha : u.calls[j]? = some a) :
          u.run [.run (.call j)] = if u.callReady j a = true then u.callStep j a else u := by
        simp only [run, List.foldl_cons, List.foldl_nil, apply, ready, step, ha]
      simp only [Entry.actions, hk, hk', Option.map_some, Option.toList_some, hrun hc, hrun hc',
        hready]
      split
      · rename_i hgo
        exact standing_goesOn h hm (deals_callStep hP h.alike hm ht hgo)
      · exact hwork (.refl r) (.refl r') h.alike

end Registry

end Multicast
