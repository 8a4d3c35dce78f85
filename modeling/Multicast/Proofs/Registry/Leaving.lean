import Multicast.Proofs.Registry.Pings

/-! The ways in which subscribers leave as chains of turns: removals, sweeps, farewells, and the
removal of all members at once. -/

namespace Multicast

open Function (update)

variable {T : Terms} {r : Registry} {P : Posts} {s : SessionId} {x : Session}

namespace Registry

/-! ### One subscriber leaves -/

/-- A removal is a turn, or nothing is left to remove. After one the subscriber is removed. -/
theorem turns_detach (r : Registry) (P : Posts) (s : SessionId) (reason : RemovalReason) :
    Turns T ⟨r, P⟩ ⟨(r.detach s reason).1, P⟩ ∧
      ((r.detach s reason).2 = true →
        ∃ x, (r.detach s reason).1.session? s = some x ∧ x.stage = .removed) := by
  by_cases hr : ∀ x, r.session? s = some x → x.stage = .removed
  · rw [detach_of_removed hr]
    exact ⟨.refl _, nofun⟩
  · rw [not_forall] at hr
    obtain ⟨x, hx⟩ := hr
    obtain ⟨hget, hstage⟩ := Classical.not_imp.mp hx
    refine ⟨(Turns.refl _).snoc (.detached reason hget hstage), ?_⟩
    intro _
    obtain ⟨es, _, hdetach⟩ := detach_eq hget hstage reason
    rw [hdetach]
    exact ⟨x.remove, session?_put_self hget _ es, rfl⟩

/-- Who takes leave of a subscriber finds its queue closed, and closes it once more. -/
theorem turns_farewellStep (hs : Sound T ⟨r, P⟩)
    (hr : ∃ x, r.session? s = some x ∧ x.stage = .removed) {f : Farewell}
    (hj : f = .fresh → T.mayJoin) :
    Turns T ⟨r, P⟩ ⟨(r.farewellStep s f).1, P⟩ := by
  obtain ⟨x, hx, hstage⟩ := hr
  cases f with
  | fresh =>
    -- the removal has closed the queue already
    have hclosed : x.queue.closed = true := (hs.lawful s x hx).closed.mpr hstage
    have hclose : Turn T ⟨r, P⟩ ⟨r.update s fun x => { x with queue := x.queue.close }, P⟩ :=
      .session hx rfl rfl (.reclose hclosed)
    have hnow := session?_update hx fun x => { x with queue := x.queue.close }
    have hjoin : Turns T ⟨r, P⟩ ⟨r.updateQueue s fun _ => x.queue.close.join.1, P⟩ := by
      have hturn : Turn T ⟨r.update s fun x => { x with queue := x.queue.close }, P⟩
          ⟨(r.update s fun x => { x with queue := x.queue.close }).updateQueue s
            fun q => { q with unjoined := false }, P⟩ :=
        .session hnow rfl rfl (.adjust x.sink x.queue.close.signal false (.inr ⟨hstage, hj rfl⟩))
      have heq : (r.update s fun x => { x with queue := x.queue.close }).updateQueue s
          (fun q => { q with unjoined := false }) =
          r.updateQueue s fun _ => x.queue.close.join.1 := by
        rw [updateQueue, update_eq_put hnow, update_eq_put hx, put_put, updateQueue,
          update_eq_put hx]
        rfl
      rw [heq] at hturn
      exact ((Turns.refl _).snoc hclose).snoc hturn
    unfold farewellStep
    rw [hx]
    dsimp only
    split
    · exact hjoin
    · exact hjoin.trans (turns_callAfter _ P s)
  | joining =>
    unfold farewellStep
    dsimp only
    refine Relation.ReflTransGen.trans ?_ (turns_callAfter _ P s)
    split
    · exact (Turns.refl _).note fun _ => rfl
    · exact Turns.refl _
  | saying hook =>
    unfold farewellStep
    dsimp only
    cases hook.step r.now with
    | running _ => exact .refl _
    | crashed => exact .refl _
    | done _ => exact .refl _

/-! ### Sweeps -/

theorem turns_nextSweep (removed : Nat) (ss : List SessionId) :
    Turns T ⟨r, P⟩ ⟨(r.nextSweep removed ss).1, P⟩ := by
  induction ss with
  | nil =>
    rw [nextSweep]
    split
    · exact (Turns.refl _).note fun _ => rfl
    · exact .refl _
  | cons s rest ih =>
    have hdetach := (turns_detach (T := T) r P s .cancelled).1
    rw [nextSweep]
    rcases hres : r.detach s .cancelled with ⟨v, found⟩
    rw [hres] at hdetach
    cases found with
    | true => exact hdetach.trans (turns_callAfter v P s)
    | false => exact ih

theorem turns_sweepStep (pass : SweepPass) :
    Turns T ⟨r, P⟩ ⟨(r.sweepStep pass).1, P⟩ := by
  unfold sweepStep
  split
  · exact .refl _
  · exact .refl _
  · rename_i result hstep
    have hnoted := turns_noteReturn (T := T) r P pass.session .hookFailed
      (fun _ _ _ => rfl) result
    exact hnoted.trans (turns_nextSweep _ _)

/-! ### All subscribers leave -/

/-- To remove one member and then the others is to remove them all. -/
theorem mapIdx_set_remove {sessions : List Session} {s : SessionId} {x : Session}
    (hx : sessions[s]? = some x) {rest : List SessionId} (hs : s ∉ rest) :
    ((sessions.set s x.remove).mapIdx fun t y => if t ∈ rest then y.remove else y) =
      sessions.mapIdx fun t y => if t ∈ s :: rest then y.remove else y := by
  apply List.ext_getElem?
  intro t
  rw [List.getElem?_mapIdx, List.getElem?_mapIdx]
  by_cases ht : t = s
  · subst ht
    rw [List.getElem?_set_self (List.getElem?_eq_some_iff.mp hx).1, hx]
    simp only [Option.map_some, hs, if_false, List.mem_cons_self, if_true]
  · rw [List.getElem?_set_ne (Ne.symm ht)]
    simp only [List.mem_cons, ht, false_or]

/-- Taking leave of several subscribers, one after the other, removes them all. -/
theorem markAllRemoved_eq {ss : List SessionId} (hn : ss.Nodup)
    (h : ∀ s ∈ ss, ∃ x, r.session? s = some x ∧ x.stage ≠ .removed) :
    ∃ es, (∀ e ∈ es, ∀ t, e.mark? t = none) ∧ markAllRemoved ss r = ({ r with
      sessions := r.sessions.mapIdx fun s x => if s ∈ ss then x.remove else x
      history := es ++ r.history }, ss) := by
  induction ss generalizing r with
  | nil =>
    refine ⟨[], nofun, ?_⟩
    have hself : (r.sessions.mapIdx fun s x => if s ∈ ([] : List SessionId) then x.remove else x) =
        r.sessions := by
      apply List.ext_getElem?
      intro t
      rw [List.getElem?_mapIdx]
      simp only [List.not_mem_nil, if_false, Option.map_id']
    rw [hself]
    rfl
  | cons s rest ih =>
    obtain ⟨hs, hrest⟩ := List.nodup_cons.mp hn
    obtain ⟨x, hx, hstage⟩ := h s List.mem_cons_self
    -- nobody is named twice, so the others are not removed by this one
    have hothers : ∀ t ∈ rest, ∃ y, (r.put s x.remove
        [.discarded (r.nameOf s) x.queue.heap.toList]).session? t = some y ∧ y.stage ≠ .removed := by
      intro t ht
      have hts : t ≠ s := fun he => hs (he ▸ ht)
      rw [session?_put_of_ne _ hts]
      exact h t (List.mem_cons_of_mem s ht)
    obtain ⟨es, he, hmarked⟩ := ih hrest hothers
    refine ⟨es ++ [.discarded (r.nameOf s) x.queue.heap.toList], ?_, ?_⟩
    · intro e hmem t
      rcases List.mem_append.mp hmem with hmem | hmem
      · exact he e hmem t
      · rw [List.mem_singleton.mp hmem]
        rfl
    · rw [markAllRemoved, markRemoved_eq hx hstage]
      dsimp only
      rw [hmarked]
      simp only [put, mapIdx_set_remove hx hs, List.append_assoc, List.cons_append,
        List.nil_append]

/-- All members leave at once. -/
theorem evacuate_eq (hs : Sound T ⟨r, P⟩) :
    ∃ es, (∀ e ∈ es, ∀ t, e.mark? t = none) ∧ r.evacuate = ({ r with
      sessions := r.sessions.mapIdx fun s x => if s ∈ r.members then x.remove else x
      members := []
      stopped := true
      history := es ++ r.history }, r.members) := by
  have hmembers : ∀ s ∈ r.members, ∃ x, Registry.session?
      { r with stopped := true, members := [] } s = some x ∧ x.stage ≠ .removed :=
    fun s hmem => (hs.mem_iff s).mp hmem
  exact markAllRemoved_eq hs.nodup hmembers

end Registry

end Multicast
