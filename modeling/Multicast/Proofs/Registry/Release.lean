import Multicast.Proofs.Registry.Steps

/-! Held writes that are let go on. One delivery changes its point, whether it belongs to a worker or
to a direct delivery, and everything else stays as it is. -/

namespace Multicast

open Function (update)

variable {T : Terms} {r : Registry} {s : SessionId} {now : Nat} {o : WriteOutcome}
  {run run' : Delivery}

/-- In a list of direct deliveries the one to the subscriber goes on from one delivery to
another. -/
inductive GoesOn (s : SessionId) (run run' : Delivery) : List Direct → List Direct → Prop
  | head {d rest} (hd : d.session = s) (hrun : d.delivery = some run) :
      GoesOn s run run' (d :: rest) ({ d with delivery := some run' } :: rest)
  | tail {d rest rest'} (h : GoesOn s run run' rest rest') :
      GoesOn s run run' (d :: rest) (d :: rest')

namespace GoesOn

variable {ds ds' : List Direct}

theorem map_session (h : GoesOn s run run' ds ds') :
    ds'.map Direct.session = ds.map Direct.session := by
  induction h with
  | head hd hrun => rfl
  | tail h ih => rw [List.map_cons, List.map_cons, ih]

theorem mem_session (h : GoesOn s run run' ds ds') : s ∈ ds.map Direct.session := by
  induction h with
  | @head d rest hd hrun =>
    rw [List.map_cons, hd]
    exact List.mem_cons_self
  | tail h ih => exact List.mem_cons_of_mem _ ih

/-- Each direct delivery afterwards was there before, with the same batch. -/
theorem exists_mem (h : GoesOn s run run' ds ds') {d' : Direct} (hd' : d' ∈ ds') :
    ∃ d ∈ ds, d'.session = d.session ∧ d'.batch = d.batch ∧ d'.kind = d.kind ∧
      (d'.delivery = d.delivery ∨ d.delivery = some run ∧ d'.delivery = some run') := by
  induction h with
  | @head d rest hd hrun =>
    rcases List.mem_cons.mp hd' with rfl | hrest
    · exact ⟨d, List.mem_cons_self, rfl, rfl, rfl, .inr ⟨hrun, rfl⟩⟩
    · exact ⟨d', List.mem_cons_of_mem d hrest, rfl, rfl, rfl, .inl rfl⟩
  | @tail d rest rest' h ih =>
    rcases List.mem_cons.mp hd' with rfl | hrest
    · exact ⟨d', List.mem_cons_self, rfl, rfl, rfl, .inl rfl⟩
    · obtain ⟨e, he, hsame⟩ := ih hrest
      exact ⟨e, List.mem_cons_of_mem d he, hsame⟩

/-- Only the post with the one subscriber changes. -/
theorem posts (h : GoesOn s run run' ds ds') (hn : (ds.map Direct.session).Nodup) :
    postsOf ds s = .busy run ∧ postsOf ds' = update (postsOf ds) s (.busy run') := by
  induction h with
  | @head d rest hd hrun =>
    subst hd
    have hpost : d.post = .busy run := by rw [Direct.post, hrun]
    simp only [postsOf, overlay, hpost, Function.update_self, Function.update_idem, true_and]
    rfl
  | @tail d rest rest' h ih =>
    obtain ⟨hd, hrest⟩ := List.nodup_cons.mp hn
    obtain ⟨hbusy, hupdate⟩ := ih hrest
    have hne : s ≠ d.session := fun he => hd (he ▸ h.mem_session)
    refine ⟨?_, ?_⟩
    · rw [postsOf, overlay, Function.update_of_ne hne]
      exact hbusy
    · rw [postsOf, overlay]
      change update (postsOf rest') d.session d.post = _
      rw [hupdate, Function.update_comm hne]
      rfl

theorem placed (h : GoesOn s run run' ds ds') (hk : run'.keepAlive = run.keepAlive)
    (hp : DirectsPlaced T r ds) : DirectsPlaced T r ds' := by
  refine ⟨?_, ?_, ?_⟩
  · intro d' hd'
    obtain ⟨d, hd, hsession, _⟩ := h.exists_mem hd'
    rw [hsession]
    exact hp.known d hd
  · rw [h.map_session]
    exact hp.nodup
  · intro d' hd'
    obtain ⟨d, hd, _, hbatch, hkind, hdelivery⟩ := h.exists_mem hd'
    have hfit := hp.fit d hd
    refine ⟨?_, ?_⟩
    · rw [hkind, hbatch]
      exact hfit.admits
    · intro hping e he
      rw [hkind] at hping
      rcases hdelivery with hsame | ⟨hrun, hrun'⟩
      · exact hfit.keepAlive hping e (hsame ▸ he)
      · obtain rfl := Option.some.inj (hrun'.symm.trans he)
        exact hk.trans (hfit.keepAlive hping run hrun)

theorem pings (h : GoesOn s run run' ds ds') (hp : ∀ d ∈ ds, d.kind = .ping) :
    ∀ d ∈ ds', d.kind = .ping := by
  intro d' hd'
  obtain ⟨d, hd, _, _, hkind, _⟩ := h.exists_mem hd'
  exact hkind.trans (hp d hd)

end GoesOn

namespace Registry

/-- A delivery whose write is let go on writes the same frame. -/
theorem release?_some (h : release? now o run = some run') :
    run'.frame = run.frame ∧ run'.keepAlive = run.keepAlive ∧ run'.isWriting = run.isWriting := by
  unfold release? at h
  split at h
  · rename_i hpoint
    cases h
    exact ⟨rfl, rfl, by rw [Delivery.isWriting, Delivery.isWriting, hpoint]⟩
  · cases h

theorem releaseDirect?_some {d d' : Direct} (h : releaseDirect? now s o d = some d') :
    ∃ run run', release? now o run = some run' ∧ d.session = s ∧ d.delivery = some run ∧
      d' = { d with delivery := some run' } := by
  unfold releaseDirect? at h
  split at h
  · rename_i hd
    obtain ⟨run', hbind, rfl⟩ := Option.map_eq_some_iff.mp h
    obtain ⟨run, hrun, hrelease⟩ := Option.bind_eq_some_iff.mp hbind
    exact ⟨run, run', hrelease, hd, hrun, rfl⟩
  · cases h

theorem releasePings?_some {ps ps' : List PingPoint} (h : releasePings? now s o ps = some ps') :
    ∃ run run', release? now o run = some run' ∧
      GoesOn s run run' (pingDirects ps) (pingDirects ps') := by
  induction ps generalizing ps' with
  | nil => cases h
  | cons q rest ih =>
    cases q with
    | answered b =>
      rw [releasePings?] at h
      obtain ⟨rest', hrest, rfl⟩ := Option.map_eq_some_iff.mp h
      obtain ⟨run, run', hrelease, hgoes⟩ := ih hrest
      exact ⟨run, run', hrelease, hgoes⟩
    | waiting d =>
      rw [releasePings?] at h
      cases hd : releaseDirect? now s o d with
      | some d' =>
        rw [hd] at h
        cases h
        obtain ⟨run, run', hrelease, hsession, hrun, rfl⟩ := releaseDirect?_some hd
        exact ⟨run, run', hrelease, .head hsession hrun⟩
      | none =>
        rw [hd] at h
        obtain ⟨rest', hrest, rfl⟩ := Option.map_eq_some_iff.mp h
        obtain ⟨run, run', hrelease, hgoes⟩ := ih hrest
        exact ⟨run, run', hrelease, .tail hgoes⟩

/-- A call with a write that is let go on: one of its direct deliveries goes on, and what was asked
of the call besides is kept. -/
theorem releaseCall?_some {c c' : Call} (h : releaseCall? now s o c = some c') :
    ∃ run run', release? now o run = some run' ∧ GoesOn s run run' c.directs c'.directs ∧
      (c.Fit T r → c'.Fit T r) ∧ c.subscribed? = none ∧ c'.subscribed? = none := by
  cases c with
  | backfilling b =>
    obtain ⟨d', hd, rfl⟩ := Option.map_eq_some_iff.mp h
    obtain ⟨run, run', hrelease, hsession, hrun, rfl⟩ := releaseDirect?_some hd
    exact ⟨run, run', hrelease, .head hsession hrun, id, rfl, rfl⟩
  | sending d =>
    obtain ⟨d', hd, rfl⟩ := Option.map_eq_some_iff.mp h
    obtain ⟨run, run', hrelease, hsession, hrun, rfl⟩ := releaseDirect?_some hd
    exact ⟨run, run', hrelease, .head hsession hrun, id, rfl, rfl⟩
  | pinging p =>
    obtain ⟨ps, hps, rfl⟩ := Option.map_eq_some_iff.mp h
    obtain ⟨run, run', hrelease, hgoes⟩ := releasePings?_some hps
    exact ⟨run, run', hrelease, hgoes, hgoes.pings, rfl, rfl⟩
  | pingLoop l =>
    obtain ⟨ps, hbind, rfl⟩ := Option.map_eq_some_iff.mp h
    obtain ⟨p, hpass, hps⟩ := Option.bind_eq_some_iff.mp hbind
    obtain ⟨run, run', hrelease, hgoes⟩ := releasePings?_some hps
    have hdirects : (Call.pingLoop l).directs = pingDirects p.pings := by
      simp only [Call.directs, hpass]
    refine ⟨run, run', hrelease, hdirects ▸ hgoes, ?_, rfl, rfl⟩
    intro hfit p' hp'
    obtain rfl := Option.some.inj hp'
    exact hgoes.pings (hfit p hpass)
  | _ => cases h

theorem releaseCalls?_some {cs cs' : List Call} (h : releaseCalls? now s o cs = some cs') :
    ∃ i c c', cs[i]? = some c ∧ cs' = cs.set i c' ∧ releaseCall? now s o c = some c' := by
  induction cs generalizing cs' with
  | nil => cases h
  | cons c rest ih =>
    rw [releaseCalls?] at h
    cases hc : releaseCall? now s o c with
    | some c' =>
      rw [hc] at h
      cases h
      exact ⟨0, c, c', rfl, rfl, hc⟩
    | none =>
      rw [hc] at h
      obtain ⟨rest', hrest, rfl⟩ := Option.map_eq_some_iff.mp h
      obtain ⟨i, d, d', hget, rfl, hd⟩ := ih hrest
      exact ⟨i + 1, d, d', hget, rfl, hd⟩

/-- A held write is let go on. -/
theorem reaches_release (hr : Settled T r) (s : SessionId) (o : WriteOutcome) :
    Reaches T r (r.release s o).1 := by
  unfold release
  dsimp only
  split
  · -- the write is one of the worker
    rename_i run' hworker
    split at hworker
    · rename_i run hrun
      obtain ⟨x, hx, hxw⟩ := Option.map_eq_some_iff.mp hrun
      obtain ⟨hf, hk, hw⟩ := release?_some hworker
      have hbusy : r.posts s .worker = .busy run := by
        rw [posts_worker hx, hxw]
        rfl
      have hmove : Turns T ⟨r, r.posts⟩ ⟨r, r.posts.move s .worker (.busy run')⟩ :=
        (Turns.refl _).snoc (.move hx (.goOn .worker run run' hbusy hf hk hw))
      have hworks : Works T ⟨r, r.posts⟩ (r.setWorker s (.delivering run')) := by
        refine works_setWorker hmove hx ?_ nofun
        rw [hxw]
        rfl
      exact .of_shifts hr hworks.shifts hworks.calls hworks.length_eq
    · cases hworker
  · split
    · -- the write is one of a call
      rename_i cs hcalls
      obtain ⟨i, c, c', hc, rfl, hcall⟩ := releaseCalls?_some hcalls
      obtain ⟨run, run', hrelease, hgoes, hfit, hn, hn'⟩ := releaseCall?_some (T := T) (r := r) hcall
      obtain ⟨hf, hk, hw⟩ := release?_some hrelease
      have hplaced := hr.placed c (List.mem_of_getElem? hc)
      obtain ⟨hpost, hposts⟩ := hgoes.posts hplaced.directs.nodup
      have hbusy : r.posts s (.call i) = .busy run := (congrFun (posts_call hc) s).trans hpost
      obtain ⟨d, hd, hds⟩ := List.mem_map.mp hgoes.mem_session
      obtain ⟨x, hx⟩ := hplaced.directs.known d hd
      rw [hds] at hx
      have hmove : Turns T ⟨r, r.posts⟩ ⟨r, r.posts.move s (.call i) (.busy run')⟩ :=
        (Turns.refl _).snoc (.move hx (.goOn (.call i) run run' hbusy hf hk hw))
      rw [Posts.move_eq_give, posts_call hc, ← hposts] at hmove
      exact .setCall hr hc hn hmove ⟨hgoes.placed hk hplaced.directs, hfit hplaced.fit⟩ hn'
    · exact .refl hr

end Registry

end Multicast
