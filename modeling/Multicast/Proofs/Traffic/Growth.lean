import Multicast.Proofs.Isolation.Directory
import Multicast.Proofs.Traffic.Actions

/-! What only grows while the traffic moves: the history, and with it the writes that began, and the
signals that were given. Subscribers stay who they are. -/

namespace Multicast

namespace Registry

variable {r u v : Registry} {s : SessionId} {x y : Session}

/-- Subscribers stay who they are, and nothing that was told or cancelled is taken back. -/
structure Grows (r v : Registry) : Prop where
  hooks : v.hooks = r.hooks
  session : ∀ s x, r.session? s = some x →
    ∃ y, v.session? s = some y ∧ y.filter = x.filter ∧ y.token = x.token
  history : r.history <:+ v.history
  cancelled : ∀ token ∈ r.cancelledTokens, token ∈ v.cancelledTokens

theorem Grows.refl (r : Registry) : Grows r r :=
  ⟨rfl, fun _ x hx => ⟨x, hx, rfl, rfl⟩, List.suffix_refl _, fun _ => id⟩

theorem Grows.trans (h : Grows r u) (h' : Grows u v) : Grows r v where
  hooks := h'.hooks.trans h.hooks
  session s x hx := by
    obtain ⟨y, hy, hfilter, htoken⟩ := h.session s x hx
    obtain ⟨z, hz, hfilter', htoken'⟩ := h'.session s y hy
    exact ⟨z, hz, hfilter'.trans hfilter, htoken'.trans htoken⟩
  history := h.history.trans h'.history
  cancelled token ht := h'.cancelled token (h.cancelled token ht)

theorem Grows.put {y : Session} (hx : r.session? s = some x) (hf : y.filter = x.filter)
    (ht : y.token = x.token) (es : List Event) : Grows r (r.put s y es) where
  hooks := rfl
  session t z hz := by
    by_cases hts : t = s
    · subst hts
      obtain rfl := Option.some.inj (hx.symm.trans hz)
      exact ⟨y, session?_put_self hx y es, hf, ht⟩
    · exact ⟨z, (session?_put_of_ne r hts y es).trans hz, rfl, rfl⟩
  history := ⟨es, rfl⟩
  cancelled _ := id

theorem Grows.begun (h : Grows r v) (s : SessionId) : r.begun s <:+ v.begun s :=
  h.history.filterMap _

/-- Who is cancelled stays so. -/
theorem Grows.isCancelled (h : Grows r v) (hc : r.isCancelled s = true) :
    v.isCancelled s = true := by
  unfold Registry.isCancelled at hc ⊢
  cases hx : r.session? s with
  | none => simp [hx] at hc
  | some x =>
    obtain ⟨y, hy, -, htoken⟩ := h.session s x hx
    rw [hx, Option.bind_some] at hc
    rw [hy, Option.bind_some, htoken]
    cases ht : x.token with
    | none => simp [ht] at hc
    | some token =>
      simp only [ht, List.contains_iff_mem] at hc ⊢
      exact h.cancelled token hc

/-! ### Writes that begin -/

theorem begunTo?_of_aside {e : Event} (he : ¬ e.IsTraffic) (s : SessionId) :
    e.begunTo? s = none := by
  cases e with
  | writeBegun => exact absurd trivial he
  | _ => rfl

theorem begun_note {e : Event} (he : e.begunTo? s = none) : (r.note e).begun s = r.begun s :=
  List.filterMap_cons_none he

theorem begun_put_append (es : List Event) (t : SessionId) :
    (r.put s y es).begun t = es.filterMap (Event.begunTo? t) ++ r.begun t :=
  List.filterMap_append

theorem begun_new (config : Config) (hooks : Hooks) (s : SessionId) :
    (new config hooks).begun s = [] := by
  obtain ⟨es, hes, hnew⟩ := exists_new_eq config hooks
  rw [hnew]
  apply List.filterMap_eq_nil_iff.mpr
  intro e he
  have hopening := hes e he
  cases e with
  | periodRaised | started => rfl
  | _ => exact hopening.elim

end Registry

open Registry

theorem Transit.grows {a b : Traffic} (t : Transit a b) : a.registry.Grows b.registry where
  hooks := by cases t <;> rfl
  session s x hx := by
    rcases t.stays s with ⟨hnone, -⟩ | ⟨x', y, hx', hy, hstays⟩
    · cases hnone.symm.trans hx
    · obtain rfl := Option.some.inj (hx'.symm.trans hx)
      exact ⟨y, hy, hstays.filter, hstays.token⟩
  history := by
    cases t with
    | note | discard | accept | skip | begin | succeed | fail => exact ⟨[_], rfl⟩
    | _ => exact List.suffix_refl _
  cancelled token ht := by cases t <;> exact ht

theorem Transfer.grows {a b : Traffic} (t : Transfer a b) : a.registry.Grows b.registry := by
  cases t with
  | transit t => exact t.grows
  | beside calls now tokens ht =>
    exact ⟨rfl, fun _ x hx => ⟨x, hx, rfl, rfl⟩, List.suffix_refl _, ht⟩
  | work w hx =>
    refine .put hx ?_ ?_ _
    · rfl
    · rfl
  | @enrol r H request =>
    refine ⟨rfl, ?_, List.suffix_cons _ _, fun _ => id⟩
    intro s x hx
    have hlt : s < r.sessions.length := (List.getElem?_eq_some_iff.mp hx).1
    refine ⟨x, ?_, rfl, rfl⟩
    rw [session?_enrol, if_neg (Nat.ne_of_lt hlt)]
    exact hx

theorem Transfers.grows {a b : Traffic} (t : Transfers a b) : a.registry.Grows b.registry := by
  induction t with
  | refl => exact .refl _
  | tail _ hstep ih => exact ih.trans hstep.grows

end Multicast
