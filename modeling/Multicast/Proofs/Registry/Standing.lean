import Multicast.Proofs.Registry.Worker

/-! The calls of a registry stand where they may: each direct delivery is to a subscriber that is
there, one at most to each, and whoever takes leave of a subscriber finds it removed. A call that
goes on lands at such a point again. -/

namespace Multicast

open Function (update)

/-- The subscriber that a registration has brought in. -/
def Call.subscribed? : Call → Option SessionId
  | .returned (.ok (.subscribed s)) => some s
  | _ => none

/-- What is asked of some direct deliveries of one call. -/
structure DirectsPlaced (T : Terms) (r : Registry) (ds : List Direct) : Prop where
  known : ∀ d ∈ ds, ∃ x, r.session? d.session = some x
  nodup : (ds.map Direct.session).Nodup
  fit : ∀ d ∈ ds, d.Fit T

/-- What is asked of a call besides. -/
def Call.Fit (T : Terms) (r : Registry) : Call → Prop
  | .backfilling b => T.admits b.batch
  | .pinging p => ∀ d ∈ pingDirects p.pings, d.kind = .ping
  | .pingLoop l => ∀ p, l.pass = some p → ∀ d ∈ pingDirects p.pings, d.kind = .ping
  | .unsubscribing s _ | .farewell s _ => ∃ x, r.session? s = some x ∧ x.stage = .removed
  | _ => True

/-- A call stands where it may. -/
structure Call.Placed (T : Terms) (r : Registry) (c : Call) : Prop where
  directs : DirectsPlaced T r c.directs
  fit : c.Fit T r

/-- The subscribers that registrations have brought in. -/
def Registry.subscribed (r : Registry) : List SessionId := r.calls.filterMap Call.subscribed?

/-- The state of a registry between two steps: it is sound with the posts that it tells of, each
call stands where it may, and each subscriber was brought in by one registration. -/
structure Settled (T : Terms) (r : Registry) : Prop where
  sound : Sound T ⟨r, r.posts⟩
  placed : ∀ c ∈ r.calls, c.Placed T r
  subscribed : r.subscribed.Perm (List.range r.sessions.length)

variable {T : Terms} {r v : Registry} {a b : Posted} {i : Nat} {c c' : Call} {ds : List Direct}

/-! ### What stays placed -/

theorem DirectsPlaced.nil : DirectsPlaced T r [] := ⟨nofun, List.nodup_nil, nofun⟩

theorem DirectsPlaced.shifts (h : DirectsPlaced T a.registry ds) (hab : Shifts T a b) :
    DirectsPlaced T b.registry ds := by
  refine ⟨?_, h.nodup, h.fit⟩
  intro d hd
  obtain ⟨x, hx⟩ := h.known d hd
  obtain ⟨y, hy, _⟩ := hab.known hx
  exact ⟨y, hy⟩

theorem Shifts.removed (h : Shifts T a b) {s : SessionId}
    (hs : ∃ x, a.registry.session? s = some x ∧ x.stage = .removed) :
    ∃ x, b.registry.session? s = some x ∧ x.stage = .removed := by
  obtain ⟨x, hx, hr⟩ := hs
  obtain ⟨y, hy, hleads⟩ := h.known hx
  exact ⟨y, hy, hleads.removed hr⟩

theorem Call.Placed.shifts (h : c.Placed T a.registry) (hab : Shifts T a b) :
    c.Placed T b.registry := by
  refine ⟨h.directs.shifts hab, ?_⟩
  have hfit := h.fit
  cases c with
  | unsubscribing s f => exact hab.removed hfit
  | farewell s f => exact hab.removed hfit
  | _ => exact hfit

/-- A call without direct deliveries is placed where nothing else is asked of it. -/
theorem Call.placed_of_directs_eq_nil (hd : c.directs = []) (hf : c.Fit T r) : c.Placed T r :=
  ⟨hd ▸ .nil, hf⟩

/-! ### Landing -/

/-- A call lands at a point: what happened on the way is a chain of shifts, and the call may stand
there. Only a registration that succeeds brings a subscriber in. -/
structure Lands (T : Terms) (r : Registry) (i : Nat) (v : Registry) (c : Call) : Prop where
  shifts : Shifts T ⟨r, r.posts⟩ ⟨v, v.posts.give (.call i) (postsOf c.directs)⟩
  calls : v.calls = r.calls
  placed : c.Placed T v
  born : v.sessions.length = r.sessions.length ∧ c.subscribed? = none ∨
    v.sessions.length = r.sessions.length + 1 ∧ c.subscribed? = some r.sessions.length

theorem Lands.of_turns (h : Turns T ⟨r, r.posts⟩ ⟨v, r.posts.give (.call i) (postsOf c.directs)⟩)
    (hc : c.Placed T v) (hn : c.subscribed? = none) : Lands T r i v c := by
  have hposts : v.posts = r.posts := h.posts_eq
  refine ⟨?_, h.keeps.1, hc, .inl ⟨h.length_eq, hn⟩⟩
  rw [hposts]
  exact h.shifts

theorem filterMap_set_of_eq {α β : Type} {f : α → Option β} {l : List α} {i : Nat} {x y : α}
    (hx : l[i]? = some x) (h : f y = f x) : (l.set i y).filterMap f = l.filterMap f := by
  induction l generalizing i with
  | nil => cases hx
  | cons z rest ih =>
    cases i with
    | zero =>
      obtain rfl := Option.some.inj hx
      simp only [List.set_cons_zero, List.filterMap_cons, h]
    | succ j =>
      rw [List.set_cons_succ, List.filterMap_cons, List.filterMap_cons, ih hx]

/-- One more entry with a value is one more value. -/
theorem filterMap_set_perm {α β : Type} {f : α → Option β} {l : List α} {i : Nat} {x y : α} {z : β}
    (hx : l[i]? = some x) (hnone : f x = none) (hsome : f y = some z) :
    ((l.set i y).filterMap f).Perm (z :: l.filterMap f) := by
  induction l generalizing i with
  | nil => cases hx
  | cons w rest ih =>
    cases i with
    | zero =>
      obtain rfl := Option.some.inj hx
      rw [List.set_cons_zero, List.filterMap_cons_some hsome, List.filterMap_cons_none hnone]
    | succ j =>
      rw [List.set_cons_succ, List.filterMap_cons, List.filterMap_cons]
      cases f w with
      | none => exact ih hx
      | some u => exact ((ih hx).cons u).trans (List.Perm.swap z u _)

/-- A call that lands leaves the registry settled. -/
theorem Lands.settled (h : Lands T r i v c) (hr : Settled T r) (hc : r.calls[i]? = some c')
    (hn : c'.subscribed? = none) :
    Shifts T ⟨r, r.posts⟩ ⟨v.setCall i c, (v.setCall i c).posts⟩ ∧ Settled T (v.setCall i c) := by
  have hi : i < v.calls.length := by
    rw [h.calls]
    exact (List.getElem?_eq_some_iff.mp hc).1
  -- the last shift writes the call to its new point, which moves its party there
  have hbeside : Shift T ⟨v, v.posts.give (.call i) (postsOf c.directs)⟩
      ⟨v.setCall i c, (v.setCall i c).posts⟩ := by
    rw [Registry.posts_setCall hi]
    exact .beside (v.calls.set i c) v.now v.cancelledTokens (Nat.le_refl _)
  have hshifts := h.shifts.tail hbeside
  refine ⟨hshifts, hr.sound.shifts hshifts, ?_, ?_⟩
  · intro d hd
    rcases List.mem_or_eq_of_mem_set hd with hd | rfl
    · rw [h.calls] at hd
      exact (hr.placed d hd).shifts hshifts
    · exact h.placed.shifts (Relation.ReflTransGen.single hbeside)
  · -- only a registration that succeeds adds to those who were brought in
    have hcv : v.calls[i]? = some c' := h.calls ▸ hc
    have hsub : v.subscribed = r.subscribed := congrArg (·.filterMap Call.subscribed?) h.calls
    show ((v.calls.set i c).filterMap Call.subscribed?).Perm (List.range v.sessions.length)
    rcases h.born with ⟨hlen, hnone⟩ | ⟨hlen, hsome⟩
    · rw [filterMap_set_of_eq hcv (hnone.trans hn.symm), hlen]
      show v.subscribed.Perm _
      rw [hsub]
      exact hr.subscribed
    · rw [hlen, List.range_succ]
      refine (filterMap_set_perm hcv hn hsome).trans ?_
      refine List.Perm.trans ?_ (List.perm_append_singleton _ _).symm
      exact (hsub ▸ hr.subscribed : v.subscribed.Perm _).cons _

/-- A call that is made stands at its start. -/
theorem Settled.addCall (h : Settled T r) (hd : c.directs = []) (hf : c.Fit T r)
    (hn : c.subscribed? = none) :
    Shift T ⟨r, r.posts⟩ ⟨r.addCall c, (r.addCall c).posts⟩ ∧ Settled T (r.addCall c) := by
  have hposts : (r.addCall c).posts = r.posts := by
    rw [Registry.posts_addCall, hd]
    funext s q
    by_cases hq : q = .call r.calls.length
    · rw [hq, Posts.give_self, Registry.posts_of_no_call (Nat.le_refl _)]
      rfl
    · rw [Posts.give_of_ne _ _ _ _ hq]
  have hbeside : Shift T ⟨r, r.posts⟩ ⟨r.addCall c, (r.addCall c).posts⟩ := by
    rw [hposts]
    exact .beside (r.calls ++ [c]) r.now r.cancelledTokens (Nat.le_refl _)
  have hshifts := Relation.ReflTransGen.single hbeside
  refine ⟨hbeside, h.sound.shift hbeside, ?_, ?_⟩
  · intro d hmem
    rcases List.mem_append.mp hmem with hmem | hmem
    · exact (h.placed d hmem).shifts hshifts
    · obtain rfl := List.mem_singleton.mp hmem
      exact (Call.placed_of_directs_eq_nil hd hf).shifts hshifts
  · show ((r.calls ++ [c]).filterMap Call.subscribed?).Perm _
    rw [List.filterMap_append, List.filterMap_cons_none hn, List.filterMap_nil, List.append_nil]
    exact h.subscribed

end Multicast
