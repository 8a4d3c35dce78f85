import Multicast.Proofs.Registry.Publishing

/-! Rounds of pings as chains of turns. All pings of a round belong to one call, which stands with
several subscribers at once, with each of them at one post. -/

namespace Multicast

open Function (update)

variable {T : Terms} {r : Registry} {P : Posts} {p : Party} {ps : List PingPoint}

/-- The pings that wait are placed, and are pings. -/
structure PingsPlaced (T : Terms) (r : Registry) (ps : List PingPoint) : Prop where
  directs : DirectsPlaced T r (pingDirects ps)
  pings : ∀ d ∈ pingDirects ps, d.kind = .ping

/-- A ping that has just asked for the gate. -/
theorem Direct.fit_of_ping {s : SessionId} {b : Batch Nat} :
    Direct.Fit T { session := s, batch := b, kind := .ping } :=
  ⟨fun h => absurd rfl h, fun _ => nofun⟩

theorem DirectsPlaced.tail {d : Direct} {ds : List Direct} (h : DirectsPlaced T r (d :: ds)) :
    DirectsPlaced T r ds :=
  ⟨fun e he => h.known e (List.mem_cons_of_mem d he), (List.nodup_cons.mp h.nodup).2,
    fun e he => h.fit e (List.mem_cons_of_mem d he)⟩

theorem DirectsPlaced.cons {d : Direct} {ds : List Direct} (h : DirectsPlaced T r ds) {x : Session}
    (hx : r.session? d.session = some x) (hd : d.Fit T) (hn : d.session ∉ ds.map Direct.session) :
    DirectsPlaced T r (d :: ds) := by
  refine ⟨?_, List.nodup_cons.mpr ⟨hn, h.nodup⟩, ?_⟩
  · intro e he
    rcases List.mem_cons.mp he with rfl | he
    · exact ⟨x, hx⟩
    · exact h.known e he
  · intro e he
    rcases List.mem_cons.mp he with rfl | he
    · exact hd
    · exact h.fit e he

namespace PingsPlaced

theorem tail {d : Direct} (h : PingsPlaced T r (.waiting d :: ps)) : PingsPlaced T r ps :=
  ⟨h.directs.tail, fun e he => h.pings e (List.mem_cons_of_mem d he)⟩

theorem cons {d : Direct} (h : PingsPlaced T r ps) {x : Session}
    (hx : r.session? d.session = some x) (hd : d.Fit T) (hping : d.kind = .ping)
    (hn : d.session ∉ (pingDirects ps).map Direct.session) : PingsPlaced T r (.waiting d :: ps) := by
  refine ⟨h.directs.cons hx hd hn, ?_⟩
  intro e he
  rcases List.mem_cons.mp he with rfl | he
  · exact hping
  · exact h.pings e he

theorem shifts {a b : Posted} (h : PingsPlaced T a.registry ps) (hab : Shifts T a b) :
    PingsPlaced T b.registry ps :=
  ⟨h.directs.shifts hab, h.pings⟩

end PingsPlaced

namespace Registry

/-! ### The beginning of a round -/

/-- The pings of a round stand in line with those of the subscribers whose queue is open. -/
theorem turns_askPings {ss : List SessionId} (hn : ss.Nodup) (hp : ∀ s ∈ ss, P s p = .away) :
    Turns T ⟨r, P⟩ ⟨(r.askPings p ss).1,
      P.give p (overlay (pingDirects (r.askPings p ss).2) fun t => P t p)⟩ ∧
      PingsPlaced T (r.askPings p ss).1 (r.askPings p ss).2 ∧
      ((pingDirects (r.askPings p ss).2).map Direct.session).Sublist ss := by
  induction ss generalizing r P with
  | nil =>
    refine ⟨?_, ⟨.nil, nofun⟩, List.Sublist.refl _⟩
    simp only [askPings, pingDirects, List.filterMap_nil, overlay]
    rw [Posts.give_eq_self]
  | cons s rest ih =>
    obtain ⟨hs, hrest⟩ := List.nodup_cons.mp hn
    have hawayRest : ∀ t ∈ rest, P t p = .away := fun t ht => hp t (List.mem_cons_of_mem s ht)
    unfold askPings
    dsimp only
    split
    · rename_i v hgate
      obtain ⟨hturns, x, hx⟩ := turns_askGate (T := T) hgate (hp s List.mem_cons_self)
      have hmoved : ∀ t ∈ rest, P.move s p .waiting t p = .away := by
        intro t ht
        have hts : t ≠ s := fun h => hs (h ▸ ht)
        rw [Posts.move_of_ne _ _ _ _ hts]
        exact hawayRest t ht
      obtain ⟨hnext, hplaced, hsub⟩ := ih (r := v) hrest hmoved
      have hnotin : s ∉ (pingDirects (v.askPings p rest).2).map Direct.session :=
        fun hmem => hs (hsub.mem hmem)
      have hall : Turns T _ _ := hturns.trans hnext
      obtain ⟨y, hy, _⟩ := hall.shifts.known hx
      refine ⟨?_, hplaced.cons hy Direct.fit_of_ping rfl hnotin, hsub.cons_cons s⟩
      rw [Posts.move_eq_give] at hturns hnext
      simp only [Posts.give_give, Posts.give_self] at hnext
      rw [overlay_update hnotin] at hnext
      exact hturns.trans hnext
    · obtain ⟨hnext, hplaced, hsub⟩ := ih (r := r) hrest hawayRest
      exact ⟨hnext, ⟨hplaced.directs, hplaced.pings⟩, hsub.cons s⟩

/-- A round whose answers are all in has no ping that waits. -/
theorem pingDirects_of_answers {answers : List Bool} (h : pingAnswers? ps = some answers) :
    pingDirects ps = [] := by
  induction ps generalizing answers with
  | nil => rfl
  | cons point rest ih =>
    cases point with
    | waiting d => cases h
    | answered reached =>
      obtain ⟨more, hmore, _⟩ := Option.map_eq_some_iff.mp h
      exact ih hmore

theorem turns_closePings (wrap : PingPass → Call)
    (hwrap : ∀ pass, (wrap pass).directs = pingDirects pass.pings)
    (hplaced : PingsPlaced T r ps) :
    Turns T ⟨r, P.give p (postsOf (pingDirects ps))⟩
      ⟨(r.closePings ps).1, P.give p ((r.closePings ps).2.postsBy wrap)⟩ ∧
      ∀ pass, (r.closePings ps).2 = .running pass →
        PingsPlaced T (r.closePings ps).1 pass.pings := by
  unfold closePings
  cases hanswers : pingAnswers? ps with
  | none =>
    refine ⟨?_, ?_⟩
    · rw [Progress.postsBy, hwrap]
    · intro pass hpass
      cases hpass
      exact hplaced
  | some answers =>
    refine ⟨?_, ?_⟩
    · rw [pingDirects_of_answers hanswers]
      exact (Turns.refl _).count (Metrics.neutral_pingPass _)
    · intro pass hpass
      cases hpass

/-- The beginning of a round by a party that stands away from everybody. -/
theorem turns_beginPings (hs : Sound T ⟨r, P⟩) (hp : ∀ t, P t p = .away) (wrap : PingPass → Call)
    (hwrap : ∀ pass, (wrap pass).directs = pingDirects pass.pings) :
    Turns T ⟨r, P⟩ ⟨(r.beginPings p).1, P.give p ((r.beginPings p).2.postsBy wrap)⟩ ∧
      ∀ pass, (r.beginPings p).2 = .running pass → PingsPlaced T (r.beginPings p).1 pass.pings := by
  obtain ⟨hasked, hplaced, _⟩ := turns_askPings (T := T) (r := r) (P := P) (p := p)
    (hs.nodup.filter fun s => !r.isCancelled s) (fun s _ => hp s)
  obtain ⟨hclosed, hrunning⟩ := turns_closePings (P := P) (p := p) wrap hwrap hplaced
  rw [funext hp] at hasked
  exact ⟨hasked.trans hclosed, hrunning⟩

/-! ### The course of a round -/

/-- To give up all pings that wait is to be away from everybody. -/
theorem turns_abandonPings (hplaced : PingsPlaced T r ps) {f : SessionId → Post}
    (hf : ∀ d ∈ pingDirects ps, f d.session = .away)
    (hp : ∀ t, P t p = overlay (pingDirects ps) f t) :
    Turns T ⟨r, P⟩ ⟨r.abandonPings p ps, P.give p f⟩ := by
  induction ps generalizing r P with
  | nil =>
    have hself : P.give p f = P := by
      rw [← show (fun t => P t p) = f from funext hp]
      exact Posts.give_eq_self P p
    rw [abandonPings, hself]
  | cons point rest ih =>
    cases point with
    | answered reached => exact ih ⟨hplaced.directs, hplaced.pings⟩ hf hp
    | waiting d =>
      have hmem : d ∈ pingDirects (.waiting d :: rest) := List.mem_cons_self
      obtain ⟨x, hx⟩ := hplaced.directs.known d hmem
      have hnotin : d.session ∉ (pingDirects rest).map Direct.session :=
        (List.nodup_cons.mp hplaced.directs.nodup).1
      have hpost : P d.session p = d.post := by
        rw [hp]
        exact Function.update_self ..
      have hgone : Turns T ⟨r, P⟩ ⟨r.abandon p d, P.move d.session p .away⟩ :=
        turns_abandon hx hpost (hplaced.directs.fit d hmem) (hplaced.pings d hmem)
      rw [Posts.move_away_of_overlay hp hnotin (hf d hmem)] at hgone
      have hrest := ih (P := P.give p (overlay (pingDirects rest) f))
        (hplaced.tail.shifts hgone.shifts) (fun e he => hf e (List.mem_cons_of_mem d he))
        (fun t => Posts.give_self ..)
      rw [Posts.give_give] at hrest
      exact hgone.trans hrest

/-- What becomes of the pings of a round when one of them goes on: they stand where the new ones
do, or nobody stands anywhere after a crash. -/
def pingPosts (o : Option (List PingPoint)) (f : SessionId → Post) : SessionId → Post :=
  match o with
  | some ps => overlay (pingDirects ps) f
  | none => f

/-- The first ping that need not wait goes on; a ping that crashes takes the others with it. -/
theorem turns_stepPings (hs : Sound T ⟨r, P⟩) (hplaced : PingsPlaced T r ps)
    {f : SessionId → Post} (hf : ∀ d ∈ pingDirects ps, f d.session = .away)
    (hp : ∀ t, P t p = overlay (pingDirects ps) f t) :
    Turns T ⟨r, P⟩ ⟨(r.stepPings p ps).1, P.give p (pingPosts (r.stepPings p ps).2 f)⟩ ∧
      ∀ qs, (r.stepPings p ps).2 = some qs →
        PingsPlaced T (r.stepPings p ps).1 qs ∧
        ((pingDirects qs).map Direct.session).Sublist ((pingDirects ps).map Direct.session) := by
  induction ps generalizing f with
  | nil =>
    have hself : P.give p f = P := by
      rw [← show (fun t => P t p) = f from funext hp]
      exact Posts.give_eq_self P p
    refine ⟨?_, ?_⟩
    · simp only [stepPings, pingPosts, pingDirects, List.filterMap_nil, overlay]
      rw [hself]
    · intro qs hqs
      cases hqs
      exact ⟨hplaced, List.Sublist.refl _⟩
  | cons point rest ih =>
    cases point with
    | answered reached =>
      obtain ⟨hturns, hqs⟩ := ih ⟨hplaced.directs, hplaced.pings⟩ hf hp
      unfold stepPings
      dsimp only
      cases hstep : (r.stepPings p rest).2 with
      | none =>
        rw [hstep] at hturns
        refine ⟨hturns, ?_⟩
        intro qs hnone
        cases hnone
      | some qs =>
        rw [hstep] at hturns
        obtain ⟨hq, hsub⟩ := hqs qs hstep
        refine ⟨hturns, ?_⟩
        intro qs' hqs'
        cases hqs'
        exact ⟨⟨hq.directs, hq.pings⟩, hsub⟩
    | waiting d =>
      have hmem : d ∈ pingDirects (.waiting d :: rest) := List.mem_cons_self
      obtain ⟨x, hx⟩ := hplaced.directs.known d hmem
      have hnotin : d.session ∉ (pingDirects rest).map Direct.session :=
        (List.nodup_cons.mp hplaced.directs.nodup).1
      have hfit := hplaced.directs.fit d hmem
      have hping := hplaced.pings d hmem
      have hawayRest : ∀ e ∈ pingDirects rest, f e.session = .away :=
        fun e he => hf e (List.mem_cons_of_mem d he)
      have hpost : P d.session p = d.post := by
        rw [hp]
        exact Function.update_self ..
      rw [stepPings]
      by_cases hready : r.directReady p d = true
      · rw [if_pos hready]
        have hturns := turns_directStep hs hx hpost hready hfit
        have hrunning : ∀ d', (r.directStep p d).2 = .running d' → d'.session = d.session ∧
            d'.batch = d.batch ∧ d'.kind = d.kind ∧ d'.Fit T :=
          fun d' hd' => directStep_running hd' hfit
        rcases hstep : r.directStep p d with ⟨v, progress⟩
        rw [hstep] at hturns hrunning
        have hrest : PingsPlaced T v rest := hplaced.tail.shifts hturns.shifts
        obtain ⟨y, hy, _⟩ := hturns.shifts.known hx
        cases progress with
        | running d' =>
          obtain ⟨hsession, _, hkind, hfit'⟩ := hrunning d' rfl
          refine ⟨?_, ?_⟩
          · dsimp only [Progress.directPost] at hturns
            rw [Posts.move_of_overlay hp hsession] at hturns
            exact hturns
          · intro qs hqs
            cases hqs
            refine ⟨hrest.cons (hsession ▸ hy) hfit' (hkind.trans hping) (hsession ▸ hnotin), ?_⟩
            rw [pingDirects_waiting, pingDirects_waiting, List.map_cons, List.map_cons, hsession]
        | done reached =>
          dsimp only [Progress.directPost] at hturns
          rw [Posts.move_away_of_overlay hp hnotin (hf d hmem)] at hturns
          refine ⟨hturns, ?_⟩
          intro qs hqs
          cases hqs
          exact ⟨⟨hrest.directs, hrest.pings⟩, List.sublist_cons_self _ _⟩
        | crashed =>
          dsimp only [Progress.directPost] at hturns
          rw [Posts.move_away_of_overlay hp hnotin (hf d hmem)] at hturns
          have hgone := turns_abandonPings (P := P.give p (overlay (pingDirects rest) f)) hrest
            hawayRest (fun t => Posts.give_self ..)
          rw [Posts.give_give] at hgone
          refine ⟨hturns.trans hgone, ?_⟩
          intro qs hnone
          cases hnone
      · rw [if_neg hready]
        -- the ping that waits is laid under the others, which go on above it
        have hbelow : ∀ t, P t p =
            overlay (pingDirects rest) (Function.update f d.session d.post) t := by
          intro t
          rw [hp, overlay_update hnotin, pingDirects_waiting, overlay]
        have hawayBelow : ∀ e ∈ pingDirects rest,
            Function.update f d.session d.post e.session = .away := by
          intro e he
          have hne : e.session ≠ d.session := by
            intro h
            exact hnotin (h ▸ List.mem_map_of_mem he)
          rw [Function.update_of_ne hne]
          exact hawayRest e he
        obtain ⟨hturns, hqs⟩ := ih hplaced.tail hawayBelow hbelow
        rcases hstep : r.stepPings p rest with ⟨v, result⟩
        rw [hstep] at hturns hqs
        obtain ⟨y, hy, _⟩ := hturns.shifts.known hx
        cases result with
        | none =>
          dsimp only [pingPosts] at hturns ⊢
          have hnow : P.give p (Function.update f d.session d.post) d.session p = d.post := by
            rw [Posts.give_self, Function.update_self]
          -- the round ends with a ping that crashes, and this one is given up with it
          have hgone : Turns T ⟨v, P.give p (Function.update f d.session d.post)⟩
              ⟨v.abandon p d,
                (P.give p (Function.update f d.session d.post)).move d.session p .away⟩ :=
            turns_abandon hy hnow hfit hping
          have hback : Function.update (Function.update f d.session d.post) d.session .away = f := by
            rw [Function.update_idem, ← hf d hmem, Function.update_eq_self]
          rw [Posts.give_move, hback] at hgone
          refine ⟨hturns.trans hgone, ?_⟩
          intro qs hnone
          cases hnone
        | some qs =>
          obtain ⟨hq, hsub⟩ := hqs qs rfl
          -- no ping has come to the subscriber meanwhile, so that it may be laid on top again
          have hnotinq : d.session ∉ (pingDirects qs).map Direct.session :=
            fun h => hnotin (hsub.mem h)
          refine ⟨?_, ?_⟩
          · dsimp only [pingPosts] at hturns ⊢
            rw [overlay_update hnotinq] at hturns
            exact hturns
          · intro qs' hqs'
            cases hqs'
            exact ⟨hq.cons hy hfit hping hnotinq, hsub.cons_cons _⟩

theorem turns_pingStep (hs : Sound T ⟨r, P⟩) {pass : PingPass}
    (hplaced : PingsPlaced T r pass.pings)
    (hp : ∀ t, P t p = postsOf (pingDirects pass.pings) t) (wrap : PingPass → Call)
    (hwrap : ∀ pass, (wrap pass).directs = pingDirects pass.pings) :
    Turns T ⟨r, P⟩ ⟨(r.pingStep p pass).1, P.give p ((r.pingStep p pass).2.postsBy wrap)⟩ ∧
      ∀ pass', (r.pingStep p pass).2 = .running pass' →
        PingsPlaced T (r.pingStep p pass).1 pass'.pings := by
  obtain ⟨hturns, hqs⟩ := turns_stepPings hs hplaced (fun _ _ => rfl) hp
  unfold pingStep
  rcases hstep : r.stepPings p pass.pings with ⟨v, result⟩
  rw [hstep] at hturns hqs
  cases result with
  | none => exact ⟨hturns, nofun⟩
  | some qs =>
    obtain ⟨hq, _⟩ := hqs qs rfl
    obtain ⟨hclosed, hrunning⟩ := turns_closePings (P := P) (p := p) wrap hwrap hq
    exact ⟨hturns.trans hclosed, hrunning⟩

end Registry

end Multicast
