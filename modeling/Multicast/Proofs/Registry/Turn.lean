import Mathlib.Logic.Relation
import Multicast.Proofs.Registry.Lifecycle
import Multicast.Registry.Step

/-! What can happen in a registry at once. A `Turn` is a turn of one lane, an event or a count that
concerns no lane, or a removal; a `Shift` is a turn or a change of what surrounds the lanes. Every
action is a chain of shifts, so that what a shift keeps holds in every run. -/

namespace Multicast

/-- Where each party stands, subscriber by subscriber. -/
abbrev Posts := SessionId → Party → Post

namespace Registry

/-- What was written to a subscriber, the latest first. -/
def log (r : Registry) (s : SessionId) : List WriteMark := r.history.filterMap (·.mark? s)

/-- Puts a subscriber into another state, with some events. -/
def put (r : Registry) (s : SessionId) (x : Session) (es : List Event) : Registry :=
  { r with sessions := r.sessions.set s x, history := es ++ r.history }

theorem log_put (r : Registry) (s t : SessionId) (x : Session) (es : List Event) :
    (r.put s x es).log t = es.filterMap (·.mark? t) ++ r.log t := by
  rw [log, log, put, List.filterMap_append]

/-- Events without marks leave a log as it is. -/
theorem filterMap_mark?_eq_nil {es : List Event} {t : SessionId}
    (he : ∀ e ∈ es, e.mark? t = none) : es.filterMap (·.mark? t) = [] :=
  List.filterMap_eq_nil_iff.mpr he

theorem log_put_of_unmarked (r : Registry) (s : SessionId) (x : Session) {es : List Event}
    {t : SessionId} (he : ∀ e ∈ es, e.mark? t = none) : (r.put s x es).log t = r.log t := by
  rw [log_put, filterMap_mark?_eq_nil he, List.nil_append]

theorem ne_of_session?_eq_none {r : Registry} {s t : SessionId} {x : Session}
    (hs : r.session? s = none) (ht : r.session? t = some x) : s ≠ t := by
  rintro rfl
  rw [hs] at ht
  cases ht

theorem session?_put_self {r : Registry} {s : SessionId} {x : Session} (hx : r.session? s = some x)
    (y : Session) (es : List Event) : (r.put s y es).session? s = some y := by
  have hlen : s < r.sessions.length := (List.getElem?_eq_some_iff.mp hx).1
  exact List.getElem?_set_self hlen

theorem session?_put_of_ne (r : Registry) {s t : SessionId} (h : t ≠ s) (y : Session)
    (es : List Event) : (r.put s y es).session? t = r.session? t :=
  List.getElem?_set_ne h.symm

/-- A change of one subscriber puts it into the changed state. -/
theorem update_eq_put {r : Registry} {s : SessionId} {x : Session} (hx : r.session? s = some x)
    (f : Session → Session) : r.update s f = r.put s (f x) [] := by
  have hmodify : r.sessions.modify s f = r.sessions.set s (f x) := by
    rw [List.modify_eq_set_getElem?]
    have hget : r.sessions[s]? = some x := hx
    rw [hget]
    rfl
  rw [update, hmodify]
  rfl

theorem update_of_none {r : Registry} {s : SessionId} (hx : r.session? s = none)
    (f : Session → Session) : r.update s f = r := by
  have hsame : r.sessions[s]? = none := hx
  rw [update, List.modify_eq_set_getElem?, hsame]
  rfl

theorem session?_update {r : Registry} {s : SessionId} {x : Session} (hx : r.session? s = some x)
    (f : Session → Session) : (r.update s f).session? s = some (f x) := by
  rw [update_eq_put hx, session?_put_self hx]

theorem session?_callAfter {r : Registry} {s t : SessionId} :
    (r.callAfter s).1.session? t = r.session? t := by
  unfold callAfter
  split <;> rfl

theorem session?_noteReturn {r : Registry} {s t : SessionId}
    {failure : SessionName → HookError → Event} {result : Except HookError Unit} :
    (r.noteReturn s failure result).session? t = r.session? t := by
  cases result <;> rfl

theorem put_self {r : Registry} {s : SessionId} {x : Session} (hx : r.session? s = some x)
    (es : List Event) : r.put s x es = { r with history := es ++ r.history } := by
  obtain ⟨hlen, hget⟩ := List.getElem?_eq_some_iff.mp hx
  rw [put, ← hget, List.set_getElem_self]

theorem put_put (r : Registry) (s : SessionId) (x y : Session) (es fs : List Event) :
    (r.put s x es).put s y fs = r.put s y (fs ++ es) := by
  simp [put, List.set_set]

theorem session?_enrol (r : Registry) (request : Subscription) (s : SessionId) :
    (r.enrol request).1.session? s = if s = r.sessions.length then
      some (.ofSubscription request r.config.queueCapacity) else r.session? s := by
  have hget : (r.enrol request).1.session? s =
      (r.sessions ++ [Session.ofSubscription request r.config.queueCapacity])[s]? := rfl
  rw [hget]
  split
  · rename_i hs
    rw [hs]
    exact List.getElem?_concat_length
  · rename_i hs
    rcases Nat.lt_or_gt_of_ne hs with hlt | hgt
    · exact List.getElem?_append_left hlt
    · have hlen : (r.sessions ++ [Session.ofSubscription request r.config.queueCapacity]).length ≤
          s := by
        rw [List.length_append, List.length_singleton]
        exact hgt
      rw [List.getElem?_eq_none_iff.mpr hlen]
      exact (List.getElem?_eq_none_iff.mpr (Nat.le_of_lt hgt)).symm

theorem session?_length (r : Registry) : r.session? r.sessions.length = none :=
  List.getElem?_eq_none_iff.mpr (Nat.le_refl _)

/-- To take leave of a subscriber that is not removed yet is to remove it. -/
theorem markRemoved_eq {r : Registry} {s : SessionId} {x : Session} (hx : r.session? s = some x)
    (hs : x.stage ≠ .removed) :
    r.markRemoved s = (r.put s x.remove [.discarded (r.nameOf s) x.queue.heap.toList], true) := by
  unfold markRemoved
  rw [hx]
  cases hstage : x.stage with
  | removed => exact absurd hstage hs
  | registered =>
    dsimp only
    rw [hstage, update_eq_put hx]
    rfl
  | active =>
    dsimp only
    rw [hstage, update_eq_put hx]
    rfl

/-- The removal of a subscriber that is not removed yet. -/
theorem detach_eq {r : Registry} {s : SessionId} {x : Session} (hx : r.session? s = some x)
    (hs : x.stage ≠ .removed) (reason : RemovalReason) :
    ∃ es, (∀ e ∈ es, ∀ t, e.mark? t = none) ∧
      r.detach s reason = ({ r.put s x.remove es with
        members := r.members.filter (· != s)
        metrics := (r.metrics.setSessions (r.members.filter (· != s)).length).sessionsRemoved
          reason 1 }, true) := by
  refine ⟨[.removed ((r.put s x.remove []).nameOf s) reason (r.members.filter (· != s)).length,
    .discarded (r.nameOf s) x.queue.heap.toList], ?_, ?_⟩
  · intro e he t
    rcases List.mem_pair.mp he with rfl | rfl
    · rfl
    · rfl
  · unfold detach
    rw [markRemoved_eq hx hs]
    rfl

/-- A subscriber has yet to be removed, or there is none, or it is removed already. -/
theorem present_or_gone (r : Registry) (s : SessionId) :
    (∃ x, r.session? s = some x ∧ x.stage ≠ .removed) ∨
      ∀ x, r.session? s = some x → x.stage = .removed := by
  by_cases hpresent : ∃ x, r.session? s = some x ∧ x.stage ≠ .removed
  · exact .inl hpresent
  · right
    intro x hx
    by_contra hstage
    exact hpresent ⟨x, hx, hstage⟩

/-- A subscriber that is not there, or is removed, is not taken leave of again. -/
theorem markRemoved_of_removed {r : Registry} {s : SessionId}
    (h : ∀ x, r.session? s = some x → x.stage = .removed) : r.markRemoved s = (r, false) := by
  unfold markRemoved
  cases hx : r.session? s with
  | none => rfl
  | some x =>
    dsimp only
    rw [h x hx]

theorem detach_of_removed {r : Registry} {s : SessionId}
    (h : ∀ x, r.session? s = some x → x.stage = .removed) (reason : RemovalReason) :
    r.detach s reason = (r, false) := by
  unfold detach
  rw [markRemoved_of_removed h]

end Registry

/-- A change of what is counted that concerns neither the number of subscribers nor those who were
removed. -/
def Metrics.Neutral (f : Metrics → Metrics) : Prop :=
  ∀ m, (f m).sessions = m.sessions ∧
    ∀ reason, (f m).value (.removed reason) = m.value (.removed reason)

/-- A registry together with the posts of all parties. -/
structure Posted where
  registry : Registry
  posts : Posts

/-- The lane of a subscriber. -/
def Posted.lane (a : Posted) (s : SessionId) (x : Session) : Lane :=
  ⟨x, a.posts s, a.registry.log s⟩

open Function (update)

/-- What happens while a task goes on, as far as it touches neither the calls nor the workers. -/
inductive Turn (T : Terms) : Posted → Posted → Prop
  | note {r P} (e : Event) (he : ∀ s, e.mark? s = none) : Turn T ⟨r, P⟩ ⟨r.note e, P⟩
  | count {r P} (f : Metrics → Metrics) (hf : Metrics.Neutral f) : Turn T ⟨r, P⟩ ⟨r.count f, P⟩
  /-- A lane takes a turn in which the subscriber is not removed. -/
  | lane {r P} {s : SessionId} {x y : Session} {ps : Party → Post} {es : List Event}
      (hx : r.session? s = some x) (he : ∀ e ∈ es, ∀ t, t ≠ s → e.mark? t = none)
      (hw : y.worker = x.worker) (hr : y.stage = x.stage)
      (ht : Lane.Turn T ⟨x, P s, r.log s⟩ ⟨y, ps, es.filterMap (·.mark? s) ++ r.log s⟩) :
      Turn T ⟨r, P⟩ ⟨r.put s y es, update P s ps⟩
  | detach {r P} {s : SessionId} {x : Session} {ps : Party → Post} (reason : RemovalReason)
      (hx : r.session? s = some x) (hr : x.stage ≠ .removed)
      (ht : Lane.Turn T ⟨x, P s, r.log s⟩ ⟨x.remove, ps, r.log s⟩) :
      Turn T ⟨r, P⟩ ⟨(r.detach s reason).1, update P s ps⟩

/-- Whatever happens in a registry at once. -/
inductive Shift (T : Terms) : Posted → Posted → Prop
  | turn {a b} (t : Turn T a b) : Shift T a b
  /-- The calls and the cancellation signals change freely, and time goes on. -/
  | beside {r P} (calls : List Call) (now : Nat) (tokens : List String) (hn : r.now ≤ now) :
      Shift T ⟨r, P⟩ ⟨{ r with calls := calls, now := now, cancelledTokens := tokens }, P⟩
  /-- A worker goes on or a subscriber is activated. -/
  | lane {r P} {s : SessionId} {x y : Session} {es : List Event}
      (hx : r.session? s = some x) (he : ∀ e ∈ es, ∀ t, e.mark? t = none)
      (hr : y.stage = .removed ↔ x.stage = .removed)
      (ht : Lane.Turn T ⟨x, P s, r.log s⟩ ⟨y, P s, r.log s⟩) :
      Shift T ⟨r, P⟩ ⟨r.put s y es, P⟩
  | enrol {r P} (request : Subscription) : Shift T ⟨r, P⟩ ⟨(r.enrol request).1, P⟩
  /-- All subscribers are removed, which is counted unless the registry is dropped. -/
  | evacuate {r P} (es : List Event) (he : ∀ e ∈ es, ∀ t, e.mark? t = none)
      (f : Metrics → Metrics)
      (hf : T.mayDrop ∨ f = fun m => (m.setSessions 0).sessionsRemoved .shutdown r.members.length) :
      Shift T ⟨r, P⟩ ⟨{ r with
        sessions := r.sessions.mapIdx fun s x => if s ∈ r.members then x.remove else x
        members := []
        stopped := true
        metrics := f r.metrics
        history := es ++ r.history }, P⟩

/-- A chain of turns. -/
abbrev Turns (T : Terms) : Posted → Posted → Prop := Relation.ReflTransGen (Turn T)

/-- A chain of shifts. -/
abbrev Shifts (T : Terms) : Posted → Posted → Prop := Relation.ReflTransGen (Shift T)

theorem Turns.shifts {T : Terms} {a b : Posted} (h : Turns T a b) : Shifts T a b :=
  Relation.ReflTransGen.mono (fun _ _ => Shift.turn) a b h

/-! ### What becomes of one lane -/

section
variable {T : Terms} {a b : Posted} {s : SessionId} {x : Session}

/-- When one subscriber is put into another state, the lanes of the others stay as they are. -/
theorem lane_step_of_put {r : Registry} {P : Posts} {t : SessionId} {y z : Session}
    {Q : Party → Post} {es : List Event} (hx : r.session? s = some x)
    (hz : r.session? t = some z) (he : ∀ e ∈ es, ∀ u, u ≠ t → e.mark? u = none)
    (ht : Lane.Turn T ⟨z, P t, r.log t⟩ ⟨y, Q, es.filterMap (·.mark? t) ++ r.log t⟩) :
    ∃ x', (r.put t y es).session? s = some x' ∧
      Relation.ReflGen (Lane.Turn T) (Posted.lane ⟨r, P⟩ s x)
        (Posted.lane ⟨r.put t y es, update P t Q⟩ s x') := by
  -- only the lane of the subscriber itself takes the turn
  by_cases hst : s = t
  · subst hst
    obtain rfl := Option.some.inj (hz.symm.trans hx)
    refine ⟨y, Registry.session?_put_self hx y es, .single ?_⟩
    simp only [Posted.lane, Registry.log_put, Function.update_self]
    exact ht
  · refine ⟨x, (Registry.session?_put_of_ne r hst y es).trans hx, ?_⟩
    have hlog : (r.put t y es).log s = r.log s :=
      Registry.log_put_of_unmarked r t y fun e hmem => he e hmem s hst
    simp only [Posted.lane, hlog, Function.update_of_ne hst]
    exact .refl

theorem Turn.lane_step (h : Turn T a b) (hx : a.registry.session? s = some x) :
    ∃ x', b.registry.session? s = some x' ∧
      Relation.ReflGen (Lane.Turn T) (a.lane s x) (b.lane s x') := by
  cases h with
  | @note r P e he =>
    refine ⟨x, hx, ?_⟩
    have hlog : (r.note e).log s = r.log s := List.filterMap_cons_none (he s)
    unfold Posted.lane
    rw [hlog]
  | count f hf => exact ⟨x, hx, .refl⟩
  | lane hz he hw hr ht => exact lane_step_of_put hx hz he ht
  | @detach r P t z ps reason hz hr ht =>
    obtain ⟨es, he, hdetach⟩ := Registry.detach_eq hz hr reason
    have hmarks : es.filterMap (·.mark? t) = [] :=
      Registry.filterMap_mark?_eq_nil fun e hmem => he e hmem t
    have hstep := lane_step_of_put (T := T) (P := P) (Q := ps) (y := z.remove) hx hz
      (fun e hmem u _ => he e hmem u) (by rw [hmarks]; exact ht)
    rw [hdetach]
    exact hstep

theorem Shift.lane_step (h : Shift T a b) (hx : a.registry.session? s = some x) :
    ∃ x', b.registry.session? s = some x' ∧
      Relation.ReflGen (Lane.Turn T) (a.lane s x) (b.lane s x') := by
  cases h with
  | turn t => exact t.lane_step hx
  | beside calls now tokens => exact ⟨x, hx, .refl⟩
  | @lane r P t z y es hz he hr ht =>
    have hmarks : es.filterMap (·.mark? t) = [] :=
      Registry.filterMap_mark?_eq_nil fun e hmem => he e hmem t
    have hstep := lane_step_of_put (T := T) (P := P) (Q := P t) (y := y) hx hz
      (fun e hmem u _ => he e hmem u) (by rw [hmarks]; exact ht)
    rw [Function.update_eq_self] at hstep
    exact hstep
  | @enrol r P request =>
    -- the new subscriber gets a number that nobody has
    have hne : s ≠ r.sessions.length := Nat.ne_of_lt (List.getElem?_eq_some_iff.mp hx).1
    refine ⟨x, ?_, .refl⟩
    rw [Registry.session?_enrol, if_neg hne]
    exact hx
  | @evacuate r P es he f hf =>
    have hmarks : es.filterMap (·.mark? s) = [] :=
      Registry.filterMap_mark?_eq_nil fun e hmem => he e hmem s
    have hget : (r.sessions.mapIdx fun s x => if s ∈ r.members then x.remove else x)[s]? =
        some (if s ∈ r.members then x.remove else x) := by
      rw [List.getElem?_mapIdx, show r.sessions[s]? = some x from hx]
      rfl
    refine ⟨_, hget, ?_⟩
    simp only [Posted.lane, Registry.log, List.filterMap_append, hmarks, List.nil_append]
    split
    · exact .single .remove
    · exact .refl

end

end Multicast
