import Multicast.Proofs.Registry.Sound

/-! Where the parties stand, read off the calls and the workers of a registry. -/

namespace Multicast

open Function (update)

/-! ### Posts -/

namespace Posts

/-- The posts after one party has gone to another post with one subscriber. -/
def move (P : Posts) (s : SessionId) (p : Party) (post : Post) : Posts :=
  update P s (update (P s) p post)

/-- The posts after one party has gone to other posts with all subscribers. -/
def give (P : Posts) (p : Party) (f : SessionId → Post) : Posts :=
  fun s q => if q = p then f s else P s q

variable (P : Posts) (s : SessionId) (p : Party) (f : SessionId → Post) (post : Post)

@[simp] theorem move_self : P.move s p post s p = post := by
  simp [move]

@[simp] theorem give_self : P.give p f s p = f s := if_pos rfl

theorem give_of_ne {q : Party} (h : q ≠ p) : P.give p f s q = P s q := if_neg h

theorem move_of_ne {t : SessionId} (h : t ≠ s) : P.move s p post t = P t :=
  Function.update_of_ne h _ _

@[simp] theorem move_move (post' : Post) : (P.move s p post).move s p post' = P.move s p post' := by
  simp [move]

theorem move_eq_self {P : Posts} {s : SessionId} {p : Party} {post : Post} (h : P s p = post) :
    P.move s p post = P := by
  rw [move, ← h, Function.update_eq_self, Function.update_eq_self]

@[simp] theorem give_give (g : SessionId → Post) : (P.give p f).give p g = P.give p g := by
  funext s q
  by_cases h : q = p
  · subst h
    simp
  · simp only [give_of_ne _ _ _ _ h]

theorem give_eq_self : (P.give p fun s => P s p) = P := by
  funext s q
  by_cases h : q = p
  · subst h
    simp
  · rw [give_of_ne _ _ _ _ h]

theorem move_eq_give : P.move s p post = P.give p (update (fun t => P t p) s post) := by
  funext t q
  by_cases ht : t = s
  · subst ht
    by_cases hq : q = p
    · subst hq
      simp
    · simp [move, give_of_ne _ _ _ _ hq, Function.update_of_ne hq]
  · rw [move_of_ne _ _ _ _ ht]
    by_cases hq : q = p
    · subst hq
      simp [Function.update_of_ne ht]
    · rw [give_of_ne _ _ _ _ hq]

theorem give_move : (P.give p f).move s p post = P.give p (update f s post) := by
  rw [move_eq_give, give_give]
  simp only [give_self]

end Posts

/-! ### The posts of calls and workers -/

/-- Where a worker stands. -/
def WorkerPoint.post : WorkerPoint Delivery → Post
  | .inLine => .waiting
  | .delivering d => .busy d
  | .absent | .fresh | .asleep | .stopped | .crashed => .away

/-- Where the party of a direct delivery stands. -/
def Direct.post (d : Direct) : Post :=
  match d.delivery with
  | some run => .busy run
  | none => .waiting

/-- The posts of some direct deliveries laid over others. -/
def overlay : List Direct → (SessionId → Post) → SessionId → Post
  | [], f => f
  | d :: rest, f => update (overlay rest f) d.session d.post

/-- Where the party of some direct deliveries stands, one for each subscriber at most. -/
def postsOf (ds : List Direct) : SessionId → Post := overlay ds fun _ => .away

theorem overlay_of_not_mem {ds : List Direct} {f : SessionId → Post} {s : SessionId}
    (h : s ∉ ds.map Direct.session) : overlay ds f s = f s := by
  induction ds with
  | nil => rfl
  | cons d rest ih =>
    rw [List.map_cons, List.mem_cons, not_or] at h
    rw [overlay, Function.update_of_ne h.1, ih h.2]

/-- A change below that is not covered may be made above. -/
theorem overlay_update {ds : List Direct} {f : SessionId → Post} {s : SessionId} {post : Post}
    (h : s ∉ ds.map Direct.session) :
    overlay ds (update f s post) = update (overlay ds f) s post := by
  induction ds with
  | nil => rfl
  | cons d rest ih =>
    rw [List.map_cons, List.mem_cons, not_or] at h
    rw [overlay, ih h.2, overlay, Function.update_comm h.1]

/-- To go away from a subscriber is to uncover the post below. -/
theorem update_overlay_away {d : Direct} {rest : List Direct} {f : SessionId → Post}
    (hn : d.session ∉ rest.map Direct.session) (hf : f d.session = .away) :
    update (overlay (d :: rest) f) d.session .away = overlay rest f := by
  have hrest : overlay rest f d.session = .away := (overlay_of_not_mem hn).trans hf
  rw [overlay, Function.update_idem, ← hrest, Function.update_eq_self]

theorem Posts.move_of_overlay {P : Posts} {p : Party} {d d' : Direct} {rest : List Direct}
    {f : SessionId → Post} (hp : ∀ t, P t p = overlay (d :: rest) f t)
    (hd : d'.session = d.session) :
    P.move d.session p d'.post = P.give p (overlay (d' :: rest) f) := by
  rw [Posts.move_eq_give, funext hp, overlay, Function.update_idem, overlay, hd]

theorem Posts.move_away_of_overlay {P : Posts} {p : Party} {d : Direct} {rest : List Direct}
    {f : SessionId → Post} (hp : ∀ t, P t p = overlay (d :: rest) f t)
    (hn : d.session ∉ rest.map Direct.session) (hf : f d.session = .away) :
    P.move d.session p .away = P.give p (overlay rest f) := by
  rw [Posts.move_eq_give, funext hp, update_overlay_away hn hf]

/-- The direct delivery of a ping, unless it is over. -/
def PingPoint.direct? : PingPoint → Option Direct
  | .waiting d => some d
  | .answered _ => none

/-- The direct deliveries of some pings. -/
def pingDirects (ps : List PingPoint) : List Direct := ps.filterMap PingPoint.direct?

@[simp] theorem pingDirects_waiting (d : Direct) (ps : List PingPoint) :
    pingDirects (.waiting d :: ps) = d :: pingDirects ps := rfl

/-- The direct deliveries of a call. -/
def Call.directs : Call → List Direct
  | .backfilling b => [b.current]
  | .sending d => [d]
  | .pinging p => pingDirects p.pings
  | .pingLoop l =>
    match l.pass with
    | some p => pingDirects p.pings
    | none => []
  | _ => []

namespace Registry

/-- Where each party stands. -/
def posts (r : Registry) : Posts
  | s, .worker => ((r.session? s).map (·.worker.post)).getD .away
  | s, .call i => ((r.calls[i]?).map fun c => postsOf c.directs s).getD .away

theorem posts_call {r : Registry} {i : Nat} {c : Call} (hc : r.calls[i]? = some c) :
    (fun s => r.posts s (.call i)) = postsOf c.directs := by
  funext s
  simp [posts, hc]

theorem posts_worker {r : Registry} {s : SessionId} {x : Session} (hx : r.session? s = some x) :
    r.posts s .worker = x.worker.post := by
  simp [posts, hx]

theorem posts_setCall {r : Registry} {i : Nat} (hi : i < r.calls.length) (c : Call) :
    (r.setCall i c).posts = r.posts.give (.call i) (postsOf c.directs) := by
  funext s q
  cases q with
  | worker => rfl
  | call j =>
    by_cases hj : j = i
    · subst hj
      have hget : (r.setCall j c).calls[j]? = some c := List.getElem?_set_self hi
      rw [Posts.give_self, ← posts_call hget]
    · have hget : (r.setCall i c).calls[j]? = r.calls[j]? := List.getElem?_set_ne (Ne.symm hj)
      rw [Posts.give_of_ne _ _ _ _ (by simpa using hj)]
      simp only [posts, hget]

theorem posts_addCall (r : Registry) (c : Call) :
    (r.addCall c).posts = r.posts.give (.call r.calls.length) (postsOf c.directs) := by
  funext s q
  cases q with
  | worker => rfl
  | call j =>
    by_cases hj : j = r.calls.length
    · subst hj
      have hget : (r.addCall c).calls[r.calls.length]? = some c := List.getElem?_concat_length
      rw [Posts.give_self, ← posts_call hget]
    · have hget : (r.addCall c).calls[j]? = r.calls[j]? := by
        have happend : (r.addCall c).calls[j]? = (r.calls ++ [c])[j]? := rfl
        rw [happend]
        rcases Nat.lt_or_gt_of_ne hj with hlt | hgt
        · exact List.getElem?_append_left hlt
        · have hlen : (r.calls ++ [c]).length ≤ j := by
            rw [List.length_append, List.length_singleton]
            exact hgt
          rw [List.getElem?_eq_none_iff.mpr hlen, List.getElem?_eq_none_iff.mpr (Nat.le_of_lt hgt)]
      rw [Posts.give_of_ne _ _ _ _ (by simpa using hj)]
      simp only [posts, hget]

/-- Whoever has no call has no post, and stands away from everybody. -/
theorem posts_of_no_call {r : Registry} {i : Nat} (hi : r.calls.length ≤ i) (s : SessionId) :
    r.posts s (.call i) = .away := by
  have hget : r.calls[i]? = none := List.getElem?_eq_none_iff.mpr hi
  simp [posts, hget]

theorem posts_congr {r v : Registry} (hc : v.calls = r.calls)
    (hw : ∀ s, (v.session? s).map (fun x => x.worker.post) =
      (r.session? s).map fun x => x.worker.post) : v.posts = r.posts := by
  funext s q
  cases q with
  | worker => simp only [posts, hw]
  | call i => simp only [posts, hc]

theorem posts_setWorker {r : Registry} {s : SessionId} {x : Session} (hx : r.session? s = some x)
    (w : WorkerPoint Delivery) : (r.setWorker s w).posts = r.posts.move s .worker w.post := by
  have hput : r.setWorker s w = r.put s { x with worker := w } [] := update_eq_put hx _
  rw [hput]
  funext t q
  by_cases ht : t = s
  · subst ht
    cases q with
    | worker =>
      rw [posts_worker (session?_put_self hx _ _), Posts.move_self]
    | call j => simp [Posts.move, posts, put]
  · rw [Posts.move_of_ne _ _ _ _ ht]
    cases q with
    | worker => simp only [posts, session?_put_of_ne _ ht]
    | call j => rfl

end Registry

/-! ### What turns leave as it is -/

/-- A turn leaves the calls and the workers as they are. -/
theorem Turn.keeps {T : Terms} {a b : Posted} (h : Turn T a b) :
    b.registry.calls = a.registry.calls ∧
      ∀ s, (b.registry.session? s).map Session.worker =
        (a.registry.session? s).map Session.worker := by
  have hput {r : Registry} {s : SessionId} {x y : Session} (hx : r.session? s = some x)
      (hw : y.worker = x.worker) (es : List Event) (t : SessionId) :
      ((r.put s y es).session? t).map Session.worker = (r.session? t).map Session.worker := by
    by_cases ht : t = s
    · subst ht
      rw [Registry.session?_put_self hx, hx, Option.map_some, Option.map_some, hw]
    · rw [Registry.session?_put_of_ne _ ht]
  cases h with
  | note | count => exact ⟨rfl, fun _ => rfl⟩
  | lane hx he hw hr ht => exact ⟨rfl, hput hx hw _⟩
  | @detach r P s x ps reason hx hr ht =>
    obtain ⟨es, _, hdetach⟩ := Registry.detach_eq hx hr reason
    have hremove := hput (y := x.remove) hx rfl es
    rw [hdetach]
    exact ⟨rfl, hremove⟩

theorem Turns.keeps {T : Terms} {a b : Posted} (h : Turns T a b) :
    b.registry.calls = a.registry.calls ∧
      ∀ s, (b.registry.session? s).map Session.worker =
        (a.registry.session? s).map Session.worker := by
  induction h with
  | refl => exact ⟨rfl, fun _ => rfl⟩
  | tail _ hstep ih =>
    obtain ⟨hcalls, hworkers⟩ := hstep.keeps
    exact ⟨hcalls.trans ih.1, fun s => (hworkers s).trans (ih.2 s)⟩

theorem Turns.length_eq {T : Terms} {a b : Posted} (h : Turns T a b) :
    b.registry.sessions.length = a.registry.sessions.length := by
  induction h with
  | refl => rfl
  | tail _ hstep ih =>
    refine Eq.trans ?_ ih
    cases hstep with
    | note | count => rfl
    | lane => exact List.length_set
    | detach reason hx hr ht =>
      obtain ⟨es, _, hdetach⟩ := Registry.detach_eq hx hr reason
      rw [hdetach]
      exact List.length_set

/-- The posts that are read off a registry change only with the calls and the workers. -/
theorem Turns.posts_eq {T : Terms} {a b : Posted} (h : Turns T a b) :
    b.registry.posts = a.registry.posts := by
  obtain ⟨hcalls, hworkers⟩ := h.keeps
  apply Registry.posts_congr hcalls
  intro s
  have hpost := congrArg (Option.map WorkerPoint.post) (hworkers s)
  rwa [Option.map_map, Option.map_map] at hpost

theorem Shifts.known {T : Terms} {a b : Posted} (h : Shifts T a b) {s : SessionId} {x : Session}
    (hx : a.registry.session? s = some x) :
    ∃ y, b.registry.session? s = some y ∧ x.stage.Leads y.stage := by
  induction h with
  | refl => exact ⟨x, hx, .refl _⟩
  | tail _ hstep ih =>
    obtain ⟨y, hy, hleads⟩ := ih
    obtain ⟨z, hz, hturn⟩ := hstep.lane_step hy
    refine ⟨z, hz, hleads.trans ?_⟩
    exact Lane.keep_of_reflGen (I := fun l => y.stage.Leads l.session.stage)
      (fun _ _ hl t => hl.trans t.stage_leads) hturn (.refl _)

end Multicast
