import Mathlib.Algebra.Order.Group.Multiset
import Multicast.Proofs.Registry.Membership

/-! Where a live batch goes. The queue of a member is open, so that the batch is added once to the
queue of each member that is not cancelled and wants to see its item; it is counted for each of
them, and nothing else changes. -/

namespace Multicast

/-- A publication is counted as one, with the number of those it went to. -/
theorem Metrics.value_batchPublished (m : Metrics) (kind : DeliveryKind) (n : Nat) (c : Counter) :
    (m.batchPublished kind n).value c = m.value c +
      if c = .routed kind then n else if c = .published kind then 1 else 0 := by
  by_cases hrouted : c = .routed kind
  · subst hrouted
    simp [batchPublished, value_add]
  · by_cases hpublished : c = .published kind
    · subst hpublished
      simp [batchPublished, value_add]
    · simp [batchPublished, value_add, hrouted, hpublished, Ne.symm hrouted, Ne.symm hpublished]

namespace Registry

variable {r v : Registry} {item : Item Nat} {s : SessionId} {x : Session}
  {ss wanted : List SessionId}

/-- Whether a subscriber is to see the item: its connection has not been cancelled, and its filter
matches. -/
def wants (r : Registry) (item : Item Nat) (s : SessionId) : Bool :=
  !r.isCancelled s && ((r.session? s).map (·.filter item)).getD false

theorem accepts_single (x : Session) (item : Item Nat) :
    x.accepts (.single item) = x.filter item := by
  simp [Session.accepts, Batch.single]

theorem wants_of_session (hx : r.session? s = some x) :
    r.wants item s = (!r.isCancelled s && x.filter item) := by
  simp only [wants, hx, Option.map_some, Option.getD_some]

theorem offer_of_unwanted (hx : r.session? s = some x) (hw : r.wants item s = false) :
    r.offer (.single item) s = (r, false) := by
  rw [wants_of_session hx] at hw
  have hskip : (r.isCancelled s || !x.filter item) = true := by
    cases hc : r.isCancelled s <;> simp_all
  simp only [offer, hx, accepts_single, hskip, if_true]

theorem offer_of_wanted (hx : r.session? s = some x) (hopen : x.queue.closed = false)
    (hw : r.wants item s = true) :
    r.offer (.single item) s = ((r.update s fun _ => (x.enqueue (.single item)).1).note
      (.enqueued (r.nameOf s) (.single item)), true) := by
  rw [wants_of_session hx] at hw
  have hskip : (r.isCancelled s || !x.filter item) = false := by
    cases hc : r.isCancelled s <;> simp_all
  simp only [offer, hx, accepts_single, hskip, Bool.false_eq_true, if_false,
    Session.enqueue_of_open _ hopen]

/-- One batch more is pending for each of the wanted subscribers, and nothing else has changed but
the history. -/
structure Loads (item : Item Nat) (wanted : List SessionId) (r v : Registry) : Prop where
  sessions : ∀ t, v.session? t =
    (r.session? t).map fun x => if t ∈ wanted then (x.enqueue (.single item)).1 else x
  rest : v = { r with sessions := v.sessions, history := v.history }

/-- An offer changes nobody but the subscriber that takes the batch. -/
theorem session?_offered {t : SessionId} (hx : r.session? s = some x) (y : Session) (e : Event) :
    ((r.update s fun _ => y).note e).session? t = if t = s then some y else r.session? t := by
  rw [update_eq_put hx]
  split
  · rename_i ht
    rw [ht]
    exact session?_put_self hx y []
  · rename_i ht
    exact session?_put_of_ne r ht y []

theorem wants_offered {t : SessionId} (hx : r.session? s = some x) (item : Item Nat) (y : Session)
    (e : Event) (ht : t ≠ s) :
    ((r.update s fun _ => y).note e).wants item t = r.wants item t := by
  simp only [wants, isCancelled, session?_offered hx, ht, if_false]
  rfl

theorem Loads.cons {e : Event} (hx : r.session? s = some x) (hs : s ∉ wanted)
    (h : Loads item wanted ((r.update s fun _ => (x.enqueue (.single item)).1).note e) v) :
    Loads item (s :: wanted) r v where
  sessions t := by
    rw [h.sessions t, session?_offered hx]
    by_cases ht : t = s
    · rw [ht, hx]
      simp [hs]
    · simp [ht]
  rest := h.rest

/-- Each of the subscribers that are to see the item gets it once. -/
theorem loads_offerAll (hn : ss.Nodup)
    (hopen : ∀ s ∈ ss, ∃ x, r.session? s = some x ∧ x.queue.closed = false) :
    (offerAll (.single item) ss r).2 = (ss.filter (r.wants item)).length ∧
      Loads item (ss.filter (r.wants item)) r (offerAll (.single item) ss r).1 := by
  induction ss generalizing r with
  | nil => exact ⟨rfl, fun t => by simp [offerAll], rfl⟩
  | cons s rest ih =>
    obtain ⟨hnew, hrest⟩ := List.nodup_cons.mp hn
    obtain ⟨x, hx, hclosed⟩ := hopen s List.mem_cons_self
    have hothers : ∀ t ∈ rest, ∃ x, r.session? t = some x ∧ x.queue.closed = false :=
      fun t ht => hopen t (List.mem_cons_of_mem s ht)
    rw [offerAll]
    cases hw : r.wants item s with
    | false =>
      rw [offer_of_unwanted hx hw, List.filter_cons_of_neg (by simp [hw])]
      exact ih hrest hothers
    | true =>
      rw [offer_of_wanted hx hclosed hw, List.filter_cons_of_pos hw]
      generalize hy : (x.enqueue (.single item)).1 = y
      generalize (.enqueued (r.nameOf s) (.single item) : Event) = e
      -- the batch that one gets does not change what the others are to see
      have hne : ∀ t ∈ rest, t ≠ s := fun t ht heq => hnew (heq ▸ ht)
      have hsame : rest.filter (((r.update s fun _ => y).note e).wants item) =
          rest.filter (r.wants item) :=
        List.filter_congr fun t ht => wants_offered hx item y e (hne t ht)
      have hopen' : ∀ t ∈ rest, ∃ x, ((r.update s fun _ => y).note e).session? t = some x ∧
          x.queue.closed = false := by
        intro t ht
        rw [session?_offered hx, if_neg (hne t ht)]
        exact hothers t ht
      obtain ⟨hcount, hloads⟩ := ih hrest hopen'
      rw [hsame] at hcount hloads
      subst hy
      refine ⟨congrArg (· + 1) hcount, hloads.cons hx ?_⟩
      exact fun hmem => hnew (List.mem_of_mem_filter hmem)

theorem open_of_mem {T : Terms} (hr : Settled T r) :
    ∀ s ∈ r.members, ∃ x, r.session? s = some x ∧ x.queue.closed = false := by
  intro s hs
  obtain ⟨x, hx, -⟩ := (hr.sound.mem_iff s).mp hs
  exact ⟨x, hx, (hr.sound.member_iff hx).2.2.mp hs⟩

/-- A batch of one item is offered to all members, and then counted. -/
theorem publishLive_single {T : Terms} (hr : Settled T r) (item : Item Nat) :
    ∃ u, Loads item (r.members.filter (r.wants item)) r u ∧ r.publishLive (.single item) =
      (u.count (·.batchPublished .live (r.members.filter (r.wants item)).length),
        .ok (r.members.filter (r.wants item)).length) := by
  obtain ⟨hcount, hloads⟩ :
      (offerAll (.single item) r.members r).2 = (r.members.filter (r.wants item)).length ∧
        Loads item (r.members.filter (r.wants item)) r (offerAll (.single item) r.members r).1 :=
    loads_offerAll hr.sound.nodup (open_of_mem hr)
  refine ⟨_, hloads, ?_⟩
  rw [← hcount]
  rfl

/-- A live batch goes just where it should. In every run a batch that does not hold one item is
refused, and nothing changes. A batch of one item is added once to the queue of each member that is
not cancelled and whose filter matches the item, activated or not, and to no other queue; the answer
is how many they are. Nothing else changes in a subscriber but that its worker is woken, and nothing
in the registry but what is counted, the counter of routed batches growing by the answer, and what
is noted. -/
theorem publishLive_exact (config : Config) (hooks : Hooks) (actions : List Action) :
    let r := (new config hooks).run actions
    (∀ b, b.size ≠ 1 → r.publishLive b = (r, .error (.invalidBatch b.size))) ∧
    ∀ item : Item Nat,
      let b := Batch.single item
      let wanted := r.members.filter (r.wants item)
      let v := (r.publishLive b).1
      (r.publishLive b).2 = .ok wanted.length ∧ wanted.Nodup ∧
      (∀ s x, r.session? s = some x → ∃ y, v.session? s = some y ∧
        y.queue.heap.contents = (if s ∈ wanted then {b} else 0) + x.queue.heap.contents ∧
        y = { x with
          queue := { x.queue with heap := y.queue.heap, signal := y.queue.signal } } ∧
        (s ∉ wanted → y = x)) ∧
      (∀ s, r.session? s = none → v.session? s = none) ∧
      (∀ c, v.metrics.value c = r.metrics.value c +
        if c = .routed .live then wanted.length else if c = .published .live then 1 else 0) ∧
      v = { r with
        sessions := v.sessions
        metrics := { r.metrics with counters := v.metrics.counters }
        history := v.history } := by
  intro r
  have hr : Settled (.any config hooks True) r := settled_any_run config hooks actions
  refine ⟨fun b hb => by simp only [publishLive, hb, if_false], fun item => ?_⟩
  intro b wanted v
  obtain ⟨u, hloads, hpublish⟩ := publishLive_single hr item
  have hv : v = u.count (·.batchPublished .live wanted.length) := congrArg Prod.fst hpublish
  have hsession (s : SessionId) : v.session? s =
      (r.session? s).map fun x => if s ∈ wanted then (x.enqueue b).1 else x := by
    rw [hv, ← hloads.sessions s]
    rfl
  have hmetrics : v.metrics = r.metrics.batchPublished .live wanted.length := by
    rw [hv, count, hloads.rest]
  refine ⟨congrArg Prod.snd hpublish, hr.sound.nodup.filter _, ?_, ?_, ?_, ?_⟩
  · intro s x hx
    rw [hsession, hx, Option.map_some]
    refine ⟨_, rfl, ?_⟩
    split
    · rename_i hs
      -- a member has an open queue, which takes the batch
      obtain ⟨x', hx', hclosed⟩ := open_of_mem hr s (List.mem_of_mem_filter hs)
      obtain rfl := Option.some.inj (hx.symm.trans hx')
      rw [Session.enqueue_of_open b hclosed]
      exact ⟨by simp, rfl, fun h => absurd hs h⟩
    · exact ⟨(zero_add _).symm, rfl, fun _ => rfl⟩
  · intro s hs
    rw [hsession, hs, Option.map_none]
  · intro c
    rw [hmetrics, Metrics.value_batchPublished]
  · rw [hmetrics, hv]
    conv_lhs => rw [hloads.rest]
    rfl

end Registry

end Multicast
