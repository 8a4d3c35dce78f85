import Multicast.Proofs.Registry.Leaving

/-! What a piece of work does to those who are registered: who is removed by it and why, whose
callback after the removal is called, and what the history tells of both. Each function of a
registry has an effect, and the effects of pieces that follow each other add up. -/

namespace Multicast

namespace Event

/-- The subscriber whose callback after the removal is called. -/
def hooked? : Event → Option SessionId
  | .afterRemoved who _ _ _ => some who.id
  | _ => none

/-- The subscriber that is reported as removed. -/
def announced? : Event → Option SessionId
  | .removed who _ _ => some who.id
  | _ => none

/-- The subscriber to which a write has failed. -/
def failed? : Event → Option SessionId
  | .writeFailed who _ _ => some who.id
  | _ => none

end Event

/-- Each call of a callback in the history, the latest event first, comes after the removal: the
subscriber is removed by then, and was reported as removed unless it is among `E`. -/
def Heard (E : List SessionId) : List Event → Prop
  | [] => True
  | .afterRemoved who stage _ _ :: earlier =>
    (stage = .removed ∧ (who.id ∈ E ∨ who.id ∈ earlier.filterMap Event.announced?)) ∧
      Heard E earlier
  | _ :: earlier => Heard E earlier

namespace Registry

/-- Whether a subscriber was registered and is removed. -/
def isGone (r : Registry) (s : SessionId) : Bool :=
  (r.session? s).any fun x => decide (x.stage = .removed)

/-- The subscribers whose callbacks after the removal were called, the latest first. -/
def hookCalls (r : Registry) : List SessionId := r.history.filterMap Event.hooked?

/-- What the history tells of removals is so. The subscribers in `E` have left all at once, which is
not reported for each of them. -/
structure Told (E : List SessionId) (r : Registry) : Prop where
  announced : ∀ s, r.isGone s = true → s ∈ E ∨ s ∈ r.history.filterMap Event.announced?
  failed : ∀ s ∈ r.history.filterMap Event.failed?, r.isGone s = true
  heard : Heard E r.history

/-- The effect of a piece of work that leads from `r` to `v`: it removes `gone` for one reason and
calls the callbacks of `called`, the latest first. -/
structure Effect (reason : Option RemovalReason) (gone called : List SessionId)
    (r v : Registry) : Prop where
  gone_iff : ∀ s, v.isGone s = true ↔ r.isGone s = true ∨ s ∈ gone
  fresh : ∀ s ∈ gone, r.isGone s = false
  nodup : gone.Nodup
  counted : ∀ q, v.metrics.value (.removed q) =
    r.metrics.value (.removed q) + if reason = some q then gone.length else 0
  hooks : v.hookCalls = called ++ r.hookCalls
  told : ∀ E, r.Told E → v.Told E
  calls : v.calls = r.calls
  stopped : v.stopped = r.stopped
  /-- Nobody is registered any more once the registry is stopped. -/
  closed : r.stopped = true → v.sessions.length = r.sessions.length

variable {r u v : Registry} {s t : SessionId} {x : Session} {q : Option RemovalReason}
  {gone gone' called called' : List SessionId}

/-! ### Who is removed -/

theorem isGone_iff : r.isGone s = true ↔ ∃ x, r.session? s = some x ∧ x.stage = .removed := by
  unfold isGone
  cases r.session? s with
  | none => simp
  | some x => simp

theorem isGone_of_session? (hx : r.session? s = some x) :
    r.isGone s = true ↔ x.stage = .removed := by
  simp [isGone, hx]

theorem isGone_put (hx : r.session? s = some x) (y : Session) (es : List Event) (t : SessionId) :
    (r.put s y es).isGone t = if t = s then decide (y.stage = .removed) else r.isGone t := by
  by_cases hts : t = s
  · subst hts
    rw [if_pos rfl, isGone, session?_put_self hx]
    rfl
  · rw [if_neg hts, isGone, session?_put_of_ne r hts]
    rfl

/-- A change that does not remove a subscriber removes nobody. -/
theorem isGone_update {f : Session → Session}
    (hf : ∀ x, r.session? s = some x → ((f x).stage = .removed ↔ x.stage = .removed))
    (t : SessionId) :
    (r.update s f).isGone t = r.isGone t := by
  cases hx : r.session? s with
  | none => rw [update_of_none hx]
  | some x =>
    rw [update_eq_put hx, isGone_put hx]
    split
    · rename_i hts
      subst hts
      rw [Bool.eq_iff_iff, decide_eq_true_iff, hf x hx]
      exact (isGone_of_session? hx).symm
    · rfl

/-- The removal of a subscriber that is not removed yet, with what is told of it. -/
theorem detach_told (hx : r.session? s = some x) (hs : x.stage ≠ .removed)
    (reason : RemovalReason) : ∃ e, e.announced? = none ∧ e.failed? = none ∧ e.hooked? = none ∧
      ∃ n, r.detach s reason = ({ r.put s x.remove
          [.removed ((r.put s x.remove []).nameOf s) reason n, e] with
        members := r.members.filter (· != s)
        metrics := (r.metrics.setSessions n).sessionsRemoved reason 1 }, true) := by
  refine ⟨.discarded (r.nameOf s) x.queue.heap.toList, rfl, rfl, rfl,
    (r.members.filter (· != s)).length, ?_⟩
  unfold detach
  rw [markRemoved_eq hx hs]
  rfl

theorem detach_cases (r : Registry) (s : SessionId) (reason : RemovalReason) :
    (∃ x, r.session? s = some x ∧ x.stage ≠ .removed ∧ (r.detach s reason).2 = true) ∨
      r.detach s reason = (r, false) := by
  rcases r.present_or_gone s with ⟨x, hx, hstage⟩ | hgone
  · obtain ⟨es, _, hdetach⟩ := detach_eq hx hstage reason
    refine .inl ⟨x, hx, hstage, ?_⟩
    rw [hdetach]
  · exact .inr (detach_of_removed hgone reason)

/-! ### What is told -/

theorem Heard.cons {E : List SessionId} {e : Event} {earlier : List Event}
    (h : Heard E earlier) (he : e.hooked? = none) : Heard E (e :: earlier) := by
  cases e with
  | afterRemoved who stage writes position => cases he
  | _ => exact h

/-- More subscribers may have left all at once. -/
theorem Heard.mono {E F : List SessionId} {es : List Event} (h : Heard E es)
    (hEF : ∀ s ∈ E, s ∈ F) : Heard F es := by
  induction es with
  | nil => trivial
  | cons e rest ih =>
    cases e with
    | afterRemoved who stage writes position =>
      obtain ⟨⟨hstage, hwho⟩, hrest⟩ := h
      exact ⟨⟨hstage, hwho.imp_left (hEF who.id)⟩, ih hrest⟩
    | _ => exact ih h

/-- What is noted beside removals does not make the history wrong. -/
theorem Told.note {E : List SessionId} (h : r.Told E) {e : Event} (hh : e.hooked? = none)
    (hf : e.failed? = none) : (r.note e).Told E where
  announced s hs := by
    refine (h.announced s hs).imp_right fun hmem => ?_
    obtain ⟨a, ha, hsome⟩ := List.mem_filterMap.mp hmem
    exact List.mem_filterMap.mpr ⟨a, List.mem_cons_of_mem e ha, hsome⟩
  failed s hs := by
    have hsame : (r.note e).history.filterMap Event.failed? = r.history.filterMap Event.failed? :=
      List.filterMap_cons_none hf
    rw [hsame] at hs
    exact h.failed s hs
  heard := Heard.cons h.heard hh

/-- A change of the registry without events keeps to what is told, if it removes nobody. -/
theorem Told.congr {E : List SessionId} (h : r.Told E) (hh : v.history = r.history)
    (hg : ∀ s, v.isGone s = r.isGone s) : v.Told E where
  announced s hs := by
    rw [hg] at hs
    rw [hh]
    exact h.announced s hs
  failed s hs := by
    rw [hh] at hs
    rw [hg]
    exact h.failed s hs
  heard := by
    rw [hh]
    exact h.heard

/-! ### Effects of small pieces -/

namespace Effect

theorem refl (r : Registry) : Effect q [] [] r r where
  gone_iff _ := by simp
  fresh := nofun
  nodup := List.nodup_nil
  counted _ := by simp
  hooks := rfl
  told _ h := h
  calls := rfl
  stopped := rfl
  closed _ := rfl

theorem trans (h : Effect q gone called r u) (h' : Effect q gone' called' u v) :
    Effect q (gone ++ gone') (called' ++ called) r v where
  gone_iff s := by
    rw [h'.gone_iff, h.gone_iff, List.mem_append, or_assoc]
  fresh s hs := by
    rcases List.mem_append.mp hs with hs | hs
    · exact h.fresh s hs
    · have hu := h'.fresh s hs
      rw [← Bool.not_eq_true, h.gone_iff, not_or] at hu
      exact Bool.eq_false_iff.mpr hu.1
  nodup := by
    refine List.nodup_append'.mpr ⟨h.nodup, h'.nodup, ?_⟩
    -- whoever leaves first is gone when the others leave
    intro s hs hs'
    have hgone : u.isGone s = true := (h.gone_iff s).mpr (.inr hs)
    rw [h'.fresh s hs'] at hgone
    cases hgone
  counted q' := by
    rw [h'.counted, h.counted, List.length_append]
    split <;> omega
  hooks := by rw [h'.hooks, h.hooks, List.append_assoc]
  told E hE := h'.told E (h.told E hE)
  calls := h'.calls.trans h.calls
  stopped := h'.stopped.trans h.stopped
  closed hr := (h'.closed (h.stopped.trans hr)).trans (h.closed hr)

/-- Work without an effect may come first. -/
theorem quiet_trans (h : Effect q [] [] r u) (h' : Effect q gone called u v) :
    Effect q gone called r v := by
  have hboth := h.trans h'
  rwa [List.nil_append, List.append_nil] at hboth

/-- Work without an effect may come last. -/
theorem trans_quiet (h : Effect q gone called r u) (h' : Effect q [] [] u v) :
    Effect q gone called r v := by
  have hboth := h.trans h'
  rwa [List.nil_append, List.append_nil] at hboth

/-- Work that removes nobody and calls nobody's callback, event by event. -/
theorem of_same (hg : ∀ s, v.isGone s = r.isGone s)
    (hm : ∀ reason, v.metrics.value (.removed reason) = r.metrics.value (.removed reason))
    (hh : v.history = r.history) (hc : v.calls = r.calls) (hs : v.stopped = r.stopped)
    (hn : v.sessions.length = r.sessions.length) : Effect q [] [] r v where
  gone_iff s := by simp [hg]
  fresh := nofun
  nodup := List.nodup_nil
  counted reason := by simp [hm]
  hooks := by rw [hookCalls, hh, hookCalls, List.nil_append]
  told _ h := h.congr hh hg
  calls := hc
  stopped := hs
  closed _ := hn

theorem note (h : Effect q gone called r u) {e : Event} (hh : e.hooked? = none)
    (hf : e.failed? = none) : Effect q gone called r (u.note e) where
  gone_iff := h.gone_iff
  fresh := h.fresh
  nodup := h.nodup
  counted := h.counted
  hooks := (List.filterMap_cons_none hh).trans h.hooks
  told E hE := (h.told E hE).note hh hf
  calls := h.calls
  stopped := h.stopped
  closed := h.closed

theorem count (h : Effect q gone called r u) {f : Metrics → Metrics}
    (hf : Metrics.Neutral f) : Effect q gone called r (u.count f) :=
  h.trans_quiet (of_same (fun _ => rfl) (hf u.metrics).2 rfl rfl rfl rfl)

theorem update (h : Effect q gone called r u) {f : Session → Session}
    (hf : ∀ x, u.session? s = some x → ((f x).stage = .removed ↔ x.stage = .removed)) :
    Effect q gone called r (u.update s f) :=
  h.trans_quiet (of_same (isGone_update hf) (fun _ => rfl) rfl rfl rfl (List.length_modify ..))

/-- A removal removes one subscriber for its reason. -/
theorem detach (hx : r.session? s = some x) (hs : x.stage ≠ .removed) (reason : RemovalReason) :
    Effect (some reason) [s] [] r (r.detach s reason).1 := by
  obtain ⟨e, ha, hf, hh, n, hdetach⟩ := detach_told hx hs reason
  have hgone (t : SessionId) : (r.detach s reason).1.isGone t = true ↔
      r.isGone t = true ∨ t ∈ [s] := by
    have hput : (r.detach s reason).1.isGone t = (r.put s x.remove []).isGone t := by
      rw [hdetach]
      rfl
    rw [hput, isGone_put hx, List.mem_singleton]
    by_cases hts : t = s
    · simp [hts, Session.remove]
    · simp [hts]
  have hevents : (r.detach s reason).1.history =
      .removed ((r.put s x.remove []).nameOf s) reason n :: e :: r.history := by
    rw [hdetach]
    rfl
  refine ⟨hgone, ?_, List.nodup_singleton s, ?_, ?_, ?_, ?_, ?_, ?_⟩
  · intro t ht
    obtain rfl := List.mem_singleton.mp ht
    rw [Bool.eq_false_iff, ne_eq, isGone_of_session? hx]
    exact hs
  · intro reason'
    rw [hdetach]
    show ((r.metrics.setSessions n).sessionsRemoved reason 1).value (.removed reason') = _
    rw [Metrics.sessionsRemoved, Metrics.value_add]
    simp only [Counter.removed.injEq, Option.some.injEq, List.length_singleton]
    split
    · rename_i heq
      subst heq
      rfl
    · rfl
  · rw [hookCalls, hevents, List.filterMap_cons_none rfl, List.filterMap_cons_none hh]
    rfl
  · intro E hE
    refine ⟨?_, ?_, ?_⟩
    · intro t ht
      have hnames : (r.detach s reason).1.history.filterMap Event.announced? =
          s :: r.history.filterMap Event.announced? := by
        rw [hevents, List.filterMap_cons, List.filterMap_cons_none ha]
        rfl
      rw [hnames]
      rcases (hgone t).mp ht with hold | hnew
      · exact (hE.announced t hold).imp_right (List.mem_cons_of_mem s)
      · rw [List.mem_singleton.mp hnew]
        exact .inr List.mem_cons_self
    · intro t ht
      rw [hevents, List.filterMap_cons_none rfl, List.filterMap_cons_none hf] at ht
      exact (hgone t).mpr (.inl (hE.failed t ht))
    · rw [hevents]
      exact Heard.cons (Heard.cons hE.heard hh) rfl
  · rw [hdetach]
    rfl
  · rw [hdetach]
    rfl
  · rw [hdetach]
    exact fun _ => List.length_set

/-- The callback after a removal is called for a subscriber that is removed. -/
theorem callAfter (hs : r.isGone s = true) : Effect q [] [s] r (r.callAfter s).1 := by
  obtain ⟨x, hx, hstage⟩ := isGone_iff.mp hs
  have hcall : (r.callAfter s).1 =
      r.note (.afterRemoved (r.nameOf s) x.stage x.writes x.cursor.position) := by
    simp only [Registry.callAfter, hx]
  rw [hcall]
  refine ⟨fun t => by simp [isGone, session?, Registry.note], nofun, List.nodup_nil,
    fun _ => by simp [Registry.note], rfl, ?_, rfl, rfl, fun _ => rfl⟩
  intro E hE
  refine ⟨hE.announced, hE.failed, ⟨hstage, ?_⟩, hE.heard⟩
  exact hE.announced s hs

/-- A removal and the call of its callback. -/
theorem detach_callAfter (hx : r.session? s = some x) (hs : x.stage ≠ .removed)
    (reason : RemovalReason) :
    Effect (some reason) [s] [s] r ((r.detach s reason).1.callAfter s).1 := by
  have hdetach := detach hx hs reason
  have hgone := (hdetach.gone_iff s).mpr (.inr List.mem_cons_self)
  exact hdetach.trans (callAfter hgone)

end Effect

end Registry

end Multicast
