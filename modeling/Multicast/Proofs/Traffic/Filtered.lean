import Multicast.Proofs.Traffic.Growth

/-! What a filter keeps from a subscriber. A live batch is put into a queue only if the filter lets
it through, and a ping repeats what was written last; so nothing else reaches the sink of a
subscriber to which no backfill was written. -/

namespace Multicast

namespace Registry

variable {r u v : Registry} {s : SessionId} {x y : Session} {b : Batch Nat} {kind : DeliveryKind}

/-- Whether a backfill was written to the subscriber. -/
def Backfilled (r : Registry) (s : SessionId) : Prop := ∃ w ∈ r.begun s, w.1 = .historical

/-- Whether a batch may be written to a subscriber: its filter lets it through, or it is no live one
and a backfill was written before. -/
def Lets (r : Registry) (kind : DeliveryKind) (s : SessionId) (b : Batch Nat) : Prop :=
  ∃ x, r.session? s = some x ∧ (x.accepts b = true ∨ kind ≠ .live ∧ r.Backfilled s)

/-- Whether all that a subscriber has pending, and what was written to it last, may be written. -/
structure Stores (r : Registry) (s : SessionId) (x : Session) : Prop where
  pending : ∀ b ∈ x.queue.heap.contents, x.accepts b = true
  lastSent : ∀ b, x.lastSent = some b → x.accepts b = true ∨ r.Backfilled s

theorem accepts_congr (h : y.filter = x.filter) (b : Batch Nat) : y.accepts b = x.accepts b := by
  rw [Session.accepts, Session.accepts, h]

/-- Only the subscriber that is put has to be looked at. -/
theorem stores_put (es : List Event) (hx : r.session? s = some x) (hy : v.Stores s y)
    (t : SessionId) (z : Session) (hz : (r.put s y es).session? t = some z) :
    r.session? t = some z ∨ v.Stores t z := by
  by_cases hts : t = s
  · subst hts
    obtain rfl := Option.some.inj ((session?_put_self hx y es).symm.trans hz)
    exact .inr hy
  · exact .inl ((session?_put_of_ne r hts y es).symm.trans hz)

/-- What is stored may change its place, or go. -/
theorem Stores.mono (h : r.Stores s x) (hf : y.filter = x.filter)
    (hp : y.queue.heap.contents ≤ x.queue.heap.contents) (hl : y.lastSent = x.lastSent) :
    r.Stores s y where
  pending b hb := by
    rw [accepts_congr hf]
    exact h.pending b (Multiset.mem_of_le hp hb)
  lastSent b hb := by
    rw [accepts_congr hf]
    exact h.lastSent b (hl ▸ hb)

namespace Grows

theorem backfilled (h : Grows r v) (hs : r.Backfilled s) : v.Backfilled s := by
  obtain ⟨w, hw, hkind⟩ := hs
  exact ⟨w, (h.begun s).subset hw, hkind⟩

theorem lets (h : Grows r v) (hb : r.Lets kind s b) : v.Lets kind s b := by
  obtain ⟨x, hx, hlets⟩ := hb
  obtain ⟨y, hy, hfilter, -⟩ := h.session s x hx
  refine ⟨y, hy, ?_⟩
  rw [accepts_congr hfilter]
  exact hlets.imp_right fun hpast => ⟨hpast.1, h.backfilled hpast.2⟩

theorem stores (h : Grows r v) (hs : r.Stores s x) : v.Stores s x :=
  ⟨hs.pending, fun b hb => (hs.lastSent b hb).imp_right h.backfilled⟩

end Grows

end Registry

/-- Whether what is in hand may be written, once its turn has come. A backfill is not asked. -/
def Hand.Fits (r : Registry) : Hand → Prop
  | .line _ kind s b => kind ≠ .historical → r.Lets kind s b
  | .busy _ s d => r.Lets d.kind s d.frame
  | .reached _ | .offered | .lost => True

theorem Hand.Fits.grows {r v : Registry} {h : Hand} (hg : r.Grows v) (hf : h.Fits r) :
    h.Fits v := by
  cases h with
  | line path kind s b => exact fun hkind => hg.lets (hf hkind)
  | busy path s d => exact hg.lets hf
  | _ => trivial

namespace Traffic

/-- Nothing but what may be written is pending, is in hand or was written. -/
structure Filtered (a : Traffic) : Prop where
  process : ∀ x b, a.registry.hooks.process x b = b
  hands : ∀ h ∈ a.hands, h.Fits a.registry
  stores : ∀ s x, a.registry.session? s = some x → a.registry.Stores s x
  begun : ∀ s, ∀ w ∈ a.registry.begun s, a.registry.Lets w.1 s w.2

end Traffic

open Registry

namespace Traffic.Filtered

variable {a b : Traffic} {r : Registry} {s : SessionId} {x y : Session} {H : Multiset Hand}

/-- What is not new was allowed already, so that only what is new has to be looked at. -/
theorem grow (h : a.Filtered) (hg : a.registry.Grows b.registry)
    (hands : ∀ g ∈ b.hands, g ∈ a.hands ∨ g.Fits b.registry)
    (stores : ∀ s y, b.registry.session? s = some y →
      a.registry.session? s = some y ∨ b.registry.Stores s y)
    (begun : ∀ s, ∀ w ∈ b.registry.begun s, w ∈ a.registry.begun s ∨ b.registry.Lets w.1 s w.2) :
    b.Filtered where
  process x c := by
    rw [hg.hooks]
    exact h.process x c
  hands g hmem := (hands g hmem).elim (fun hold => (h.hands g hold).grows hg) id
  stores s y hy := (stores s y hy).elim (fun hold => hg.stores (h.stores s y hold)) id
  begun s w hw := (begun s w hw).elim (fun hold => hg.lets (h.begun s w hold)) id

/-- A change of one subscriber that writes nothing. -/
theorem put (h : Filtered ⟨r, H⟩) {G : Multiset Hand} {es : List Event}
    (hg : r.Grows (r.put s y es)) (hx : r.session? s = some x)
    (hy : (r.put s y es).Stores s y) (hes : ∀ t, es.filterMap (Event.begunTo? t) = [])
    (hG : ∀ g ∈ G, g ∈ H ∨ g.Fits (r.put s y es)) : Filtered ⟨r.put s y es, G⟩ := by
  refine h.grow hg hG (stores_put es hx hy) ?_
  intro t w hw
  have hsame : (r.put s y es).begun t = r.begun t := by rw [begun_put_append, hes, List.nil_append]
  exact .inl (hsame ▸ hw)

/-- A change that leaves the subscribers and the writes to them as they are. -/
theorem aside (h : Filtered ⟨r, H⟩) {v : Registry} {G : Multiset Hand} (hg : r.Grows v)
    (hv : ∀ s, v.session? s = r.session? s) (hb : ∀ s, v.begun s = r.begun s)
    (hG : ∀ g ∈ G, g ∈ H ∨ g.Fits v) : Filtered ⟨v, G⟩ := by
  refine h.grow hg hG ?_ ?_
  · intro s y hy
    exact .inl ((hv s).symm.trans hy)
  · intro s w hw
    exact .inl (hb s ▸ hw)

theorem lets_pingFrame (h : r.Stores s x) (hx : r.session? s = some x) :
    r.Lets .ping s x.pingFrame := by
  refine ⟨x, hx, ?_⟩
  unfold Session.pingFrame
  cases hlast : x.lastSent with
  | none => exact .inl rfl
  | some b => exact (h.lastSent b hlast).imp_right fun hpast => ⟨nofun, hpast⟩

theorem transit (h : a.Filtered) (t : Transit a b) : b.Filtered := by
  have hg := t.grows
  cases t with
  | note e he =>
    exact h.aside hg (fun _ => rfl) (fun s => begun_note (begunTo?_of_aside he s)) fun _ => .inl
  | count | roster => exact h.aside hg (fun _ => rfl) (fun _ => rfl) fun _ => .inl
  | quit | rest | abandon =>
    refine h.aside hg (fun _ => rfl) (fun _ => rfl) fun g hmem => .inl ?_
    exact Multiset.mem_cons_of_mem hmem
  | reportLive | reportHistorical | reportPings =>
    refine h.aside hg (fun _ => rfl) (fun _ => rfl) fun g hmem => .inl ?_
    exact Multiset.mem_add.mpr (.inr hmem)
  | crash =>
    refine h.aside hg (fun _ => rfl) (fun _ => rfl) fun g hmem => ?_
    rcases Multiset.mem_cons.mp hmem with rfl | hold
    · exact .inr trivial
    · exact .inl hold
  | finish path d =>
    refine h.aside hg (fun _ => rfl) (fun _ => rfl) fun g hmem => ?_
    rcases Multiset.mem_cons.mp hmem with rfl | hold
    · exact .inr trivial
    · exact .inl (Multiset.mem_cons_of_mem hold)
  | skip path kind b who position =>
    refine h.aside hg (fun _ => rfl) (fun _ => rfl) fun g hmem => ?_
    rcases Multiset.mem_cons.mp hmem with rfl | hold
    · exact .inr trivial
    · exact .inl (Multiset.mem_cons_of_mem hold)
  | @goOn r H s path d d' hkind hframe =>
    have hbusy : r.Lets d.kind s d.frame := h.hands _ (Multiset.mem_cons_self _ _)
    refine h.aside hg (fun _ => rfl) (fun _ => rfl) fun g hmem => ?_
    rcases Multiset.mem_cons.mp hmem with rfl | hold
    · right
      rw [← hkind, ← hframe] at hbusy
      exact hbusy
    · exact .inl (Multiset.mem_cons_of_mem hold)
  | @fail r H s path d d' who e took hw hkind hframe =>
    have hbusy : r.Lets d.kind s d.frame := h.hands _ (Multiset.mem_cons_self _ _)
    refine h.aside hg (fun _ => rfl) (fun _ => rfl) fun g hmem => ?_
    rcases Multiset.mem_cons.mp hmem with rfl | hold
    · right
      rw [← hkind, ← hframe] at hbusy
      exact hg.lets hbusy
    · exact .inl (Multiset.mem_cons_of_mem hold)
  | @join r H s x path b hx hpath hcancelled hping =>
    refine h.aside hg (fun _ => rfl) (fun _ => rfl) fun g hmem => ?_
    rcases Multiset.mem_cons.mp hmem with rfl | hold
    · right
      intro hkind
      cases path with
      | live => exact absurd rfl hpath
      | historical => exact absurd rfl hkind
      | ping =>
        rw [hping rfl]
        exact lets_pingFrame (h.stores s x hx) hx
    · exact .inl hold
  | @touch r H s x y hx hy =>
    have hstores := (h.stores s x hx).mono hy.filter hy.pending.le hy.lastSent
    exact h.put hg hx (hg.stores hstores) (fun _ => rfl) fun _ => .inl
  | @discard r H s x who hx =>
    have hstores := (h.stores s x hx).mono (y := x.remove) rfl (Multiset.zero_le _) rfl
    exact h.put hg hx (hg.stores hstores) (fun _ => rfl) fun _ => .inl
  | @accept r H s x who b hx hcancelled haccepts =>
    have hbefore := h.stores s x hx
    have hstores : r.Stores s (x.withHeap (x.queue.heap.push b)) := by
      have hpushed : (x.withHeap (x.queue.heap.push b)).queue.heap.contents =
          b ::ₘ x.queue.heap.contents := Heap.contents_push _ _
      refine ⟨?_, hbefore.lastSent⟩
      intro c hc
      rw [hpushed] at hc
      -- the batch that is added has passed the filter
      rcases Multiset.mem_cons.mp hc with rfl | hold
      · exact haccepts
      · exact hbefore.pending c hold
    refine h.put hg hx (hg.stores hstores) (fun _ => rfl) fun g hmem => ?_
    rcases Multiset.mem_cons.mp hmem with rfl | hold
    · exact .inr trivial
    · exact .inl hold
  | @take r H s x b rest hx hb =>
    have hbefore := h.stores s x hx
    have hcontents := Heap.contents_of_pop? hb
    have hstores := hbefore.mono (y := x.withHeap rest) rfl
      (hcontents ▸ Multiset.le_cons_self _ _) rfl
    refine h.put hg hx (hg.stores hstores) (fun _ => rfl) fun g hmem => ?_
    rcases Multiset.mem_cons.mp hmem with rfl | hold
    · right
      intro _
      have haccepts : x.accepts b = true := by
        apply hbefore.pending
        rw [hcontents]
        exact Multiset.mem_cons_self _ _
      exact hg.lets ⟨x, hx, .inl haccepts⟩
    · exact .inl hold
  | @begin r H s x path b d who sink hx hwho hframe hw =>
    have hline : d.kind ≠ .historical → r.Lets d.kind s b := h.hands _ (Multiset.mem_cons_self _ _)
    have hsame : d.frame = b := hframe.trans (h.process x b)
    let v := r.put s { x with sink := sink } [.writeBegun who d.kind d.keepAlive d.frame]
    have hbegun (t : SessionId) (w : DeliveryKind × Batch Nat) (hw : w ∈ v.begun t) :
        w ∈ r.begun t ∨ s = t ∧ w = (d.kind, d.frame) := by
      rw [begun_put_append] at hw
      rcases List.mem_append.mp hw with hnew | hold
      · by_cases hst : who.id = t
        · have hone := (List.mem_filterMap.mp hnew)
          simp only [List.mem_singleton, exists_eq_left, Event.begunTo?, if_pos hst,
            Option.some.injEq] at hone
          exact .inr ⟨hwho.symm.trans hst, hone.symm⟩
        · simp [Event.begunTo?, hst] at hnew
      · exact .inl hold
    have hlets : v.Lets d.kind s d.frame := by
      by_cases hkind : d.kind = .historical
      · -- the write of a backfill is what excuses it
        have hmem : (d.kind, d.frame) ∈ v.begun s := by
          rw [begun_put_append]
          simp [Event.begunTo?, hwho]
        refine ⟨_, session?_put_self hx _ _, .inr ⟨?_, _, hmem, hkind⟩⟩
        rw [hkind]
        nofun
      · rw [hsame]
        exact hg.lets (hline hkind)
    have hstores := (h.stores s x hx).mono (y := { x with sink := sink }) rfl le_rfl rfl
    refine h.grow hg ?_ (stores_put _ hx (hg.stores hstores)) ?_
    · intro g hmem
      rcases Multiset.mem_cons.mp hmem with rfl | hold
      · exact .inr hlets
      · exact .inl (Multiset.mem_cons_of_mem hold)
    · intro t w hw
      rcases hbegun t w hw with hold | ⟨rfl, rfl⟩
      · exact .inl hold
      · exact .inr hlets
  | @succeed r H s x path d who took hx hwho hw =>
    have hbusy : r.Lets d.kind s d.frame := h.hands _ (Multiset.mem_cons_self _ _)
    have hbefore := h.stores s x hx
    obtain ⟨cursor, lastSent, hlast, hserved⟩ := x.exists_served_eq d
    have hstores : r.Stores s (x.served d) := by
      rw [hserved]
      refine ⟨hbefore.pending, ?_⟩
      rcases hlast with rfl | rfl
      · exact hbefore.lastSent
      · -- what was written last may be written again
        intro b hb
        obtain rfl := Option.some.inj hb
        obtain ⟨z, hz, hlets⟩ := hbusy
        obtain rfl := Option.some.inj (hx.symm.trans hz)
        exact hlets.imp_right And.right
    have hput := stores_put [.writeSucceeded who d.kind d.keepAlive d.frame] hx (hg.stores hstores)
    refine h.grow hg ?_ hput fun _ _ => .inl
    intro g hmem
    rcases Multiset.mem_cons.mp hmem with rfl | hold
    · exact .inr trivial
    · exact .inl (Multiset.mem_cons_of_mem hold)

theorem transfer (h : a.Filtered) (t : Transfer a b) : b.Filtered := by
  have hg := t.grows
  cases t with
  | transit t => exact h.transit t
  | beside => exact h.aside hg (fun _ => rfl) (fun _ => rfl) fun _ => .inl
  | @work r H s x w hx =>
    have hstores := (h.stores s x hx).mono (y := { x with worker := w }) rfl le_rfl rfl
    exact h.put hg hx (hg.stores hstores) (fun _ => rfl) fun _ => .inl
  | @enrol r H request =>
    refine h.grow hg (fun _ => .inl) ?_ fun _ _ => .inl
    intro s y hy
    rw [session?_enrol] at hy
    split at hy
    · -- nothing is stored for somebody new
      obtain rfl := Option.some.inj hy
      refine .inr ⟨?_, nofun⟩
      intro b hb
      exact absurd hb (Multiset.notMem_zero b)
    · exact .inl hy

theorem transfers (h : a.Filtered) (t : Transfers a b) : b.Filtered := by
  induction t with
  | refl => exact h
  | tail _ hstep ih => exact ih.transfer hstep

end Traffic.Filtered

namespace Registry

theorem filtered_new (config : Config) {hooks : Hooks} (hp : ∀ x b, hooks.process x b = b) :
    Traffic.Filtered ⟨new config hooks, 0⟩ where
  process x b := by
    rw [(new_idle config hooks).1]
    exact hp x b
  hands g hg := absurd hg (Multiset.notMem_zero g)
  stores s x hx := by
    rw [session?_new] at hx
    cases hx
  begun s w hw := by
    rw [begun_new] at hw
    cases hw

/-- Each item of a live batch that is written passes the filter of the subscriber, whoever else is
there and whatever happens to them. Where no backfill was ever written to a subscriber the same holds
of its pings, and so of all that reaches its sink. -/
theorem filter_respected (config : Config) {hooks : Hooks} (hp : ∀ x b, hooks.process x b = b)
    (actions : List Action) {s : SessionId} {x : Session}
    (hx : ((new config hooks).run actions).session? s = some x) :
    (∀ w ∈ ((new config hooks).run actions).begun s, w.1 = .live →
      ∀ item ∈ w.2.items, x.filter item = true) ∧
    ((∀ w ∈ ((new config hooks).run actions).begun s, w.1 ≠ .historical) →
      ∀ w ∈ ((new config hooks).run actions).begun s, ∀ item ∈ w.2.items,
        x.filter item = true) := by
  have hfiltered := (filtered_new config hp).transfers (handsOver_new_run config hooks actions)
  generalize (new config hooks).run actions = r at hx hfiltered
  have hlets (w : DeliveryKind × Batch Nat) (hw : w ∈ r.begun s) :
      (∀ item ∈ w.2.items, x.filter item = true) ∨ w.1 ≠ .live ∧ r.Backfilled s := by
    obtain ⟨y, hy, hcase⟩ := hfiltered.begun s w hw
    obtain rfl := Option.some.inj (hx.symm.trans hy)
    exact hcase.imp_left List.all_eq_true.mp
  refine ⟨?_, ?_⟩
  · intro w hw hlive
    exact (hlets w hw).resolve_right fun hpast => hpast.1 hlive
  · intro hnever w hw
    refine (hlets w hw).resolve_right ?_
    rintro ⟨-, past, hmem, hkind⟩
    exact hnever past hmem hkind

/-- One subscriber wants the even items only; the other wants everything, and gets a backfill. A
ping repeats to each what was written to it last. -/
theorem filter_respected_of_pings :
    let r := (new {} {}).run ([
      .subscribe { filter := fun item => item.id % 2 = 0 }, .run (.call 1), .activate 0,
      .subscribe {}, .run (.call 2), .activate 1,
      .publishLive ⟨[⟨4, ""⟩]⟩, .publishLive ⟨[⟨5, ""⟩]⟩] ++
      List.replicate 6 (.run (.worker 0)) ++ List.replicate 8 (.run (.worker 1)) ++
      [.sendHistorical 1 ⟨[⟨7, ""⟩, ⟨9, ""⟩]⟩] ++ List.replicate 3 (.run (.call 3)) ++
      [.ping] ++ List.replicate 6 (.run (.call 4)))
    r.begun 0 = [(.ping, ⟨[⟨4, ""⟩]⟩), (.live, ⟨[⟨4, ""⟩]⟩)] ∧
      (r.begun 1).map Prod.fst = [.ping, .historical, .live, .live] ∧
      ∃ x, r.session? 0 = some x ∧
        ∀ w ∈ r.begun 0, ∀ item ∈ w.2.items, x.filter item = true := by
  intro r
  have hsome : (r.session? 0).isSome = true := by decide +kernel
  obtain ⟨x, hx⟩ := Option.isSome_iff_exists.mp hsome
  have hbegun : r.begun 0 = [(.ping, ⟨[⟨4, ""⟩]⟩), (.live, ⟨[⟨4, ""⟩]⟩)] := by decide +kernel
  have hnever : ∀ w ∈ r.begun 0, w.1 ≠ .historical := by
    rw [hbegun]
    decide
  refine ⟨hbegun, by decide +kernel, x, hx, ?_⟩
  exact (filter_respected {} (fun _ _ => rfl) _ hx).2 hnever

end Registry

end Multicast
