import Mathlib.Data.List.Nodup
import Multicast.Proofs.Registry.Turn

/-! What holds of a registry at every moment: each lane is lawful, and the members are those that
are not removed, each one once. -/

namespace Multicast

open Function (update)

/-- A registry is sound if its lanes are lawful and its members are those that are not removed. -/
structure Sound (T : Terms) (a : Posted) : Prop where
  policy : a.registry.config.stalePolicy = T.policy
  process : a.registry.hooks.process = T.process
  lawful : ∀ s x, a.registry.session? s = some x → (a.lane s x).Lawful T
  /-- Nobody deals with a subscriber that is not there yet. -/
  strangers : ∀ s, a.registry.session? s = none →
    (∀ p, a.posts s p = .away) ∧ a.registry.log s = []
  nodup : a.registry.members.Nodup
  mem_iff : ∀ s, s ∈ a.registry.members ↔
    ∃ x, a.registry.session? s = some x ∧ x.stage ≠ .removed

variable {T : Terms} {a b : Posted} {s : SessionId} {x y : Session}

/-! ### Subscribers that are not there yet -/

/-- Nothing happens to a subscriber that is not there yet. -/
theorem Turn.stranger (h : Turn T a b) (hs : a.registry.session? s = none) :
    b.registry.session? s = none ∧ b.posts s = a.posts s ∧ b.registry.log s = a.registry.log s := by
  cases h with
  | note e he => exact ⟨hs, rfl, List.filterMap_cons_none (he s)⟩
  | count f hf => exact ⟨hs, rfl, rfl⟩
  | @lane r P t x y ps es hx he hw hr ht =>
    have hst : s ≠ t := Registry.ne_of_session?_eq_none hs hx
    exact ⟨(Registry.session?_put_of_ne r hst y es).trans hs, Function.update_of_ne hst _ _,
      Registry.log_put_of_unmarked r t y fun e hmem => he e hmem s hst⟩
  | @detach r P t x ps reason hx hr ht =>
    have hst : s ≠ t := Registry.ne_of_session?_eq_none hs hx
    obtain ⟨es, he, hdetach⟩ := Registry.detach_eq hx hr reason
    have hlog : (r.put t x.remove es).log s = r.log s :=
      Registry.log_put_of_unmarked r t x.remove fun e hmem => he e hmem s
    rw [hdetach]
    exact ⟨(Registry.session?_put_of_ne r hst _ es).trans hs, Function.update_of_ne hst _ _, hlog⟩

/-- Only a registration brings a subscriber in, and with a fresh lane. -/
theorem Shift.stranger (h : Shift T a b) (hs : a.registry.session? s = none) :
    b.posts s = a.posts s ∧ b.registry.log s = a.registry.log s ∧
      ∀ y, b.registry.session? s = some y →
        ∃ request room, y = Session.ofSubscription request room := by
  cases h with
  | turn t =>
    obtain ⟨hnone, hposts, hlog⟩ := t.stranger hs
    refine ⟨hposts, hlog, ?_⟩
    intro y hy
    rw [hnone] at hy
    cases hy
  | beside calls now tokens =>
    refine ⟨rfl, rfl, ?_⟩
    intro y hy
    cases hs.symm.trans hy
  | @lane r P t x y es hx he hr ht =>
    have hst : s ≠ t := Registry.ne_of_session?_eq_none hs hx
    refine ⟨rfl, Registry.log_put_of_unmarked r t y fun e hmem => he e hmem s, ?_⟩
    intro z hz
    cases hs.symm.trans ((Registry.session?_put_of_ne r hst y es).symm.trans hz)
  | @enrol r P request =>
    refine ⟨rfl, List.filterMap_cons_none rfl, ?_⟩
    intro y hy
    rw [Registry.session?_enrol] at hy
    split at hy
    · exact ⟨request, r.config.queueCapacity, (Option.some.inj hy).symm⟩
    · cases hs.symm.trans hy
  | @evacuate r P es he f hf =>
    have hmarks : es.filterMap (·.mark? s) = [] :=
      Registry.filterMap_mark?_eq_nil fun e hmem => he e hmem s
    refine ⟨rfl, ?_, ?_⟩
    · simp only [Registry.log, List.filterMap_append, hmarks, List.nil_append]
    · intro y hy
      have hget : (r.sessions.mapIdx fun s x => if s ∈ r.members then x.remove else x)[s]? =
          some y := hy
      rw [List.getElem?_mapIdx, show r.sessions[s]? = none from hs] at hget
      cases hget

/-! ### A shift keeps a registry sound -/

/-- The lane of a subscriber after a shift is what its lane has become, or it is fresh. -/
theorem Shift.lane_cases (h : Shift T a b)
    (hs : ∀ s, a.registry.session? s = none → (∀ p, a.posts s p = .away) ∧ a.registry.log s = [])
    (hy : b.registry.session? s = some y) :
    (∃ x, a.registry.session? s = some x ∧
      Relation.ReflGen (Lane.Turn T) (a.lane s x) (b.lane s y)) ∨
      ∃ request room, b.lane s y = .fresh request room := by
  cases hx : a.registry.session? s with
  | some x =>
    obtain ⟨y', hy', hstep⟩ := h.lane_step hx
    obtain rfl := Option.some.inj (hy'.symm.trans hy)
    exact .inl ⟨x, rfl, hstep⟩
  | none =>
    obtain ⟨hposts, hlog, hnew⟩ := h.stranger hx
    obtain ⟨request, room, rfl⟩ := hnew y hy
    obtain ⟨haway, hnil⟩ := hs s hx
    refine .inr ⟨request, room, ?_⟩
    unfold Posted.lane Lane.fresh
    rw [hposts, hlog, hnil, funext haway]

theorem Lane.keep_of_reflGen {I : Lane → Prop} (turn : ∀ l l', I l → Lane.Turn T l l' → I l')
    {l l' : Lane} (h : Relation.ReflGen (Lane.Turn T) l l') (hl : I l) : I l' := by
  cases h with
  | refl => exact hl
  | single t => exact turn l l' hl t

/-- An invariant of lanes that a turn keeps is kept by a shift. -/
theorem Shift.lane_induction {I : Lane → Prop}
    (fresh : ∀ request room, I (.fresh request room))
    (turn : ∀ l l', I l → Lane.Turn T l l' → I l') (h : Shift T a b) (hs : Sound T a)
    (hi : ∀ s x, a.registry.session? s = some x → I (a.lane s x)) (s : SessionId) (y : Session)
    (hy : b.registry.session? s = some y) : I (b.lane s y) := by
  rcases h.lane_cases hs.strangers hy with ⟨x, hx, hstep⟩ | ⟨request, room, hfresh⟩
  · exact Lane.keep_of_reflGen turn hstep (hi s x hx)
  · rw [hfresh]
    exact fresh request room

theorem Sound.mem_filter_iff (h : Sound T a) (hx : a.registry.session? s = some x)
    (es : List Event) (t : SessionId) :
    t ∈ a.registry.members.filter (· != s) ↔
      ∃ y, (a.registry.put s x.remove es).session? t = some y ∧ y.stage ≠ .removed := by
  rw [List.mem_filter, bne_iff_ne]
  by_cases hts : t = s
  · subst hts
    apply iff_of_false (fun ht => ht.2 rfl)
    rintro ⟨y, hy, hstage⟩
    rw [Registry.session?_put_self hx] at hy
    obtain rfl := Option.some.inj hy
    exact hstage rfl
  · rw [Registry.session?_put_of_ne _ hts, h.mem_iff t]
    exact and_iff_left hts

theorem Sound.mem_put_iff (h : Sound T a) (hx : a.registry.session? s = some x)
    (hr : y.stage = .removed ↔ x.stage = .removed) (es : List Event) (t : SessionId) :
    t ∈ a.registry.members ↔
      ∃ z, (a.registry.put s y es).session? t = some z ∧ z.stage ≠ .removed := by
  rw [h.mem_iff t]
  by_cases hts : t = s
  · subst hts
    rw [Registry.session?_put_self hx, hx]
    simp only [Option.some.injEq, exists_eq_left', ne_eq, hr]
  · rw [Registry.session?_put_of_ne _ hts]

theorem Sound.mem_enrol_iff (h : Sound T a) (request : Subscription) (t : SessionId) :
    t ∈ a.registry.members ++ [a.registry.sessions.length] ↔
      ∃ y, (a.registry.enrol request).1.session? t = some y ∧ y.stage ≠ .removed := by
  rw [List.mem_append, List.mem_singleton, Registry.session?_enrol]
  split
  · rename_i ht
    exact iff_of_true (.inr ht) ⟨_, rfl, nofun⟩
  · rename_i ht
    rw [or_iff_left ht]
    exact h.mem_iff t

/-- After the removal of all members nobody is left who is not removed. -/
theorem Sound.removed_of_evacuate (h : Sound T a)
    (hy : (a.registry.sessions.mapIdx fun s x =>
      if s ∈ a.registry.members then x.remove else x)[s]? = some y) : y.stage = .removed := by
  rw [List.getElem?_mapIdx, Option.map_eq_some_iff] at hy
  obtain ⟨x, hx, rfl⟩ := hy
  by_cases hmem : s ∈ a.registry.members
  · rw [if_pos hmem]
    rfl
  · rw [if_neg hmem]
    by_contra hstage
    exact hmem ((h.mem_iff s).mpr ⟨x, hx, hstage⟩)

/-- Nothing changes how a registry is set up. -/
theorem Shift.setup (h : Shift T a b) :
    b.registry.config = a.registry.config ∧ b.registry.hooks = a.registry.hooks := by
  cases h with
  | turn t =>
    cases t with
    | note | count | lane => exact ⟨rfl, rfl⟩
    | detach reason hx hr ht =>
      obtain ⟨es, _, hdetach⟩ := Registry.detach_eq hx hr reason
      rw [hdetach]
      exact ⟨rfl, rfl⟩
  | beside | lane | enrol | evacuate => exact ⟨rfl, rfl⟩

/-- The clock does not go back. -/
theorem Shift.now_le (h : Shift T a b) : a.registry.now ≤ b.registry.now := by
  cases h with
  | turn t =>
    cases t with
    | note | count | lane => exact Nat.le_refl _
    | detach reason hx hr ht =>
      obtain ⟨es, _, hdetach⟩ := Registry.detach_eq hx hr reason
      rw [hdetach]
      exact Nat.le_refl _
  | beside calls now tokens hn => exact hn
  | lane | enrol | evacuate => exact Nat.le_refl _

theorem Shifts.now_le (h : Shifts T a b) : a.registry.now ≤ b.registry.now := by
  induction h with
  | refl => exact Nat.le_refl _
  | tail _ hstep ih => exact ih.trans hstep.now_le

theorem Sound.shift (h : Sound T a) (hab : Shift T a b) : Sound T b where
  policy := by
    rw [hab.setup.1]
    exact h.policy
  process := by
    rw [hab.setup.2]
    exact h.process
  lawful := hab.lane_induction Lane.lawful_fresh (fun _ _ => Lane.Lawful.turn) h h.lawful
  strangers s hs := by
    -- whoever is not there now was not there before
    have ha : a.registry.session? s = none := by
      cases hx : a.registry.session? s with
      | none => rfl
      | some x =>
        obtain ⟨y, hy, _⟩ := hab.lane_step hx
        rw [hs] at hy
        cases hy
    obtain ⟨hposts, hlog, _⟩ := hab.stranger ha
    rw [hposts, hlog]
    exact h.strangers s ha
  nodup := by
    cases hab with
    | turn t =>
      cases t with
      | note | count | lane => exact h.nodup
      | detach reason hx hr ht =>
        obtain ⟨es, _, hdetach⟩ := Registry.detach_eq hx hr reason
        rw [hdetach]
        exact h.nodup.filter _
    | beside | lane => exact h.nodup
    | @enrol r P request =>
      -- the new subscriber is no member yet, since members are there
      have hnew : r.sessions.length ∉ r.members := by
        intro hmem
        obtain ⟨x, hx, _⟩ := (h.mem_iff _).mp hmem
        cases (Registry.session?_length r).symm.trans hx
      have hconcat := h.nodup.concat hnew
      rwa [List.concat_eq_append] at hconcat
    | evacuate => exact List.nodup_nil
  mem_iff t := by
    cases hab with
    | turn u =>
      cases u with
      | note | count => exact h.mem_iff t
      | lane hx he hw hr ht => exact h.mem_put_iff hx (by rw [hr]) _ t
      | detach reason hx hr ht =>
        obtain ⟨es, _, hdetach⟩ := Registry.detach_eq hx hr reason
        rw [hdetach]
        exact h.mem_filter_iff hx es t
    | beside => exact h.mem_iff t
    | lane hx he hr ht => exact h.mem_put_iff hx hr _ t
    | enrol request => exact h.mem_enrol_iff request t
    | evacuate es he f hf =>
      apply iff_of_false List.not_mem_nil
      rintro ⟨y, hy, hstage⟩
      exact hstage (h.removed_of_evacuate hy)

theorem Sound.shifts (h : Sound T a) (hab : Shifts T a b) : Sound T b := by
  induction hab with
  | refl => exact h
  | tail _ hstep ih => exact ih.shift hstep

end Multicast
