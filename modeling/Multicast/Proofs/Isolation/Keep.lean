import Multicast.Proofs.Isolation.Deed
import Multicast.Proofs.Registry.Run
import Multicast.Proofs.Registry.Work

/-! What moves pass by, and what they do for a name in two registries alike. -/

namespace Multicast

open Registry

variable {config : Config} {request : Subscription} {name other : String} {d d' v v' : Directory}
  {e f : Entry} {r : Registry} {s : SessionId} {c : Call}

namespace Registry

/-- What leads from `r` to `v` brings in one subscriber, registered so, and nobody else notices. -/
structure Brings (request : Subscription) (r v : Registry) : Prop extends Steady r v where
  calls : v.calls = r.calls ++ [.returned (.ok (.subscribed r.sessions.length))]
  session? : ∀ t, v.session? t = if t = r.sessions.length then
    some (.ofSubscription request r.config.queueCapacity) else r.session? t
  begun : ∀ t, v.begun t = r.begun t

/-- A registration around which nothing is done does not wait. -/
theorem brings_subscribe (hh : r.hooks = {}) (hs : r.stopped = false) (request : Subscription) :
    Brings request r (r.run [.subscribe request, .run (.call r.calls.length)]) := by
  have hcall : r.subscribe request = (r.note (.beforeRegistered request.peer request.keys)).addCall
      (.subscribing request ⟨r.now, .succeed⟩) := by
    simp [subscribe, hs, hh]
  have hget : (r.calls ++ [.subscribing request ⟨r.now, .succeed⟩])[r.calls.length]? =
      some (.subscribing request ⟨r.now, .succeed⟩) := List.getElem?_concat_length
  have hrun : r.run [.subscribe request, .run (.call r.calls.length)] =
      (Registry.enrol ((r.note (.beforeRegistered request.peer request.keys)).addCall
        (.subscribing request ⟨r.now, .succeed⟩)) request).1.setCall r.calls.length
          (.returned (.ok (.subscribed r.sessions.length))) := by
    show (r.subscribe request).apply (.run (.call r.calls.length)) = _
    rw [hcall]
    simp only [apply, ready, step, addCall, note, hget, callReady, HookRun.ready, Nat.le_refl,
      decide_true, if_true, callStep, subscribeStep, HookRun.step, hs, Bool.false_eq_true, if_false]
    rfl
  rw [hrun]
  refine ⟨⟨rfl, rfl, rfl, rfl, rfl⟩, ?_, ?_, fun t => rfl⟩
  · show (r.calls ++ [_]).set r.calls.length _ = _
    rw [List.set_append_right _ _ (Nat.le_refl _), Nat.sub_self]
    rfl
  · exact fun t => session?_enrol _ request t

end Registry

namespace Directory

/-- What leads from `d` to `v` passes a name by: its subscriber and its calls stay as they are, and
so does the loop that sweeps. -/
structure PassesBy (name : String) (d v : Directory) : Prop extends
    Steady d.registry v.registry where
  clock : v.registry.calls[0]? = d.registry.calls[0]?
  entry : v.lookup? name = d.lookup? name
  beside : ∀ e, d.lookup? name = some e → Beside e.session d.registry v.registry
  calls : ∀ e, d.lookup? name = some e →
    ∀ i ∈ e.calls, v.registry.calls[i]? = d.registry.calls[i]?

/-- What belongs to a name is in both directories, and stands as it would, or in neither. -/
structure Like (name : String) (request : Subscription) (d d' : Directory) : Prop where
  around : Around request d.registry d'.registry
  clock : d'.registry.calls[0]? = d.registry.calls[0]?
  entry : (d.lookup? name = none ∧ d'.lookup? name = none) ∨
    ∃ e e', d.lookup? name = some e ∧ d'.lookup? name = some e' ∧
      Standing request e e' d.registry d'.registry

/-- A directory between two moves: nobody sweeps in the background, what belongs to a name stands as
it should, and what belongs to two names is apart. -/
structure Sound (config : Config) (d : Directory) : Prop where
  settled : Settled (.any config {} True) d.registry
  gated : d.registry.Gated
  hooks : d.registry.hooks = {}
  running : d.registry.stopped = false
  loop : ∃ l, d.registry.calls[0]? = some (.sweepLoop l) ∧ l.pass = none
  stands : ∀ name e, d.lookup? name = some e →
    ∃ request, Standing request e e d.registry d.registry
  apart : ∀ name other e f, name ≠ other → d.lookup? name = some e → d.lookup? other = some f →
    e.session ≠ f.session ∧ e.calls.Disjoint f.calls

theorem PassesBy.refl (name : String) (d : Directory) : PassesBy name d d :=
  ⟨.refl _, rfl, rfl, fun _ _ => .refl _ _, fun _ _ _ _ => rfl⟩

theorem Like.passBy (h : Like name request d d') (hv : PassesBy name d v)
    (hv' : PassesBy name d' v') : Like name request v v' where
  around := around_steady h.around hv.toSteady hv'.toSteady
  clock := by rw [hv.clock, hv'.clock, h.clock]
  entry := by
    rw [hv.entry, hv'.entry]
    rcases h.entry with hnone | ⟨e, e', he, he', hstand⟩
    · exact .inl hnone
    · refine .inr ⟨e, e', he, he', ?_, hstand.length, hstand.nodup, ?_⟩
      · exact alike_beside hstand.alike (hv.beside e he) (hv'.beside e' he')
      · intro i i' hm
        obtain ⟨c, c', hc, hc', ht⟩ := hstand.calls i i' hm
        obtain ⟨hi, hi'⟩ := hm.mem
        exact ⟨c, c', (hv.calls e he i hi).trans hc, (hv'.calls e' he' i' hi').trans hc', ht⟩

/-- Every name is like itself. -/
theorem Sound.like (h : Sound config d) (he : d.lookup? name = some e) :
    ∃ request, Like name request d d ∧ Standing request e e d.registry d.registry := by
  obtain ⟨request, hstand⟩ := h.stands name e he
  exact ⟨request, ⟨hstand.alike.toAround, rfl, .inr ⟨e, e, he, he, hstand⟩⟩, hstand⟩

theorem Sound.like_of_none (h : Sound config d) (he : d.lookup? name = none)
    (request : Subscription) : Like name request d d where
  around := ⟨⟨h.hooks, h.hooks⟩, ⟨h.running, h.running⟩, rfl, rfl, fun _ _ => Iff.rfl⟩
  clock := rfl
  entry := .inl ⟨he, he⟩

/-! ### Deeds -/

/-- The loop that sweeps was not made for a name. -/
theorem zero_not_mem (h : Sound config d) (hstand : Standing request e e d.registry d.registry) :
    0 ∉ e.calls := by
  intro hmem
  obtain ⟨k, hk⟩ := List.mem_iff_getElem?.mp hmem
  obtain ⟨c, _, hc, _, ht⟩ := hstand.calls 0 0 (.call hk hk)
  obtain ⟨l, hl, _⟩ := h.loop
  obtain rfl := Option.some.inj (hc.symm.trans hl)
  cases ht

/-- A deed for a name is confined to what belongs to it. -/
theorem Sound.confined (h : Sound config d) (he : d.lookup? name = some e) (deed : Deed) :
    Confined e.session e.calls d.registry (d.registry.run (e.actions deed)) := by
  obtain ⟨_, -, hstand⟩ := h.like he
  exact (standing_deed hstand h.settled h.gated h.settled h.gated deed).2.1

/-- The loop that sweeps goes on by itself only. -/
theorem clock_of_confined (h : Sound config d) (he : d.lookup? name = some e)
    (hr : Confined e.session e.calls d.registry r) : r.calls[0]? = d.registry.calls[0]? := by
  obtain ⟨_, -, hstand⟩ := h.like he
  obtain ⟨l, hl, _⟩ := h.loop
  exact (hr.calls 0 _ (zero_not_mem h hstand) hl).trans hl.symm

theorem act_of_entry (he : d.lookup? name = some e) (deed : Deed) :
    d.act name deed = (d.withRegistry (d.registry.run (e.actions deed))).setEntry name
      (e.after d.registry deed) := by
  simp only [act, he]

theorem passesBy_act (h : Sound config d) (hne : other ≠ name) (deed : Deed) :
    PassesBy name d (d.act other deed) := by
  cases hf : d.lookup? other with
  | none =>
    simp only [act, hf]
    exact .refl name d
  | some f =>
    have hconfined := h.confined hf deed
    rw [act_of_entry hf]
    refine ⟨hconfined.toSteady, clock_of_confined h hf hconfined,
      Function.update_of_ne hne.symm _ _, ?_, ?_⟩
    · intro e he
      obtain ⟨hsession, -⟩ := h.apart name other e f hne.symm he hf
      exact ⟨hconfined.toSteady, hconfined.session? _ hsession, hconfined.begun _ hsession⟩
    · intro e he i hi
      obtain ⟨-, hcalls⟩ := h.apart name other e f hne.symm he hf
      obtain ⟨_, -, hown⟩ := h.like he
      have hlt := hown.lt_length.1 i hi
      have hget := List.getElem?_eq_getElem hlt
      exact (hconfined.calls i _ (hcalls hi) hget).trans hget.symm

/-! ### Registrations -/

/-- The calls that are there stay as they are when calls are added. -/
theorem getElem?_of_append {cs cs' : List Call} (h : cs' = cs ++ [c]) {i : Nat}
    (hi : i < cs.length) : cs'[i]? = cs[i]? := by
  rw [h, List.getElem?_append_left hi]

theorem subscribe_of_taken (he : d.lookup? name = some e) (request : Subscription) :
    d.subscribe name request = d := by
  simp [subscribe, he]

/-- A name that is free is given to the subscriber that comes in. -/
theorem subscribe_of_free (h : Sound config d) (he : d.lookup? name = none)
    (request : Subscription) :
    Brings request d.registry (d.subscribe name request).registry ∧
      (d.subscribe name request).lookup? =
        Function.update d.lookup? name (some { session := d.registry.sessions.length }) := by
  have hbrings := brings_subscribe h.hooks h.running request
  have hsub : d.subscribe name request = (d.withRegistry (d.registry.run
      [.subscribe request, .run (.call d.registry.calls.length)])).setEntry name
        (some { session := d.registry.sessions.length }) := by
    have hget : (d.registry.run [.subscribe request, .run (.call d.registry.calls.length)]).calls[
        d.registry.calls.length]? =
          some (.returned (.ok (.subscribed d.registry.sessions.length))) := by
      rw [hbrings.calls]
      exact List.getElem?_concat_length
    simp only [subscribe, he, hget]
    rfl
  rw [hsub]
  exact ⟨hbrings, rfl⟩

theorem passesBy_subscribe (h : Sound config d) (hne : other ≠ name) (request : Subscription) :
    PassesBy name d (d.subscribe other request) := by
  cases hf : d.lookup? other with
  | some f =>
    rw [subscribe_of_taken hf]
    exact .refl name d
  | none =>
    obtain ⟨hbrings, hentry⟩ := subscribe_of_free h hf request
    obtain ⟨l, hl, _⟩ := h.loop
    refine ⟨hbrings.toSteady, ?_, ?_, ?_, ?_⟩
    · exact getElem?_of_append hbrings.calls (List.getElem?_eq_some_iff.mp hl).1
    · rw [hentry]
      exact Function.update_of_ne hne.symm _ _
    · intro e he
      obtain ⟨_, -, hstand⟩ := h.like he
      obtain ⟨x, _, hx, _⟩ := hstand.alike.twin
      have hold : e.session ≠ d.registry.sessions.length :=
        (ne_of_session?_eq_none (session?_length d.registry) hx).symm
      refine ⟨hbrings.toSteady, ?_, hbrings.begun _⟩
      rw [hbrings.session?, if_neg hold]
    · intro e he i hi
      obtain ⟨_, -, hstand⟩ := h.like he
      exact getElem?_of_append hbrings.calls (hstand.lt_length.1 i hi)

/-- Nothing was written to a subscriber that is not there yet. -/
theorem begun_of_stranger {T : Terms} (hr : Settled T r) (hs : r.session? s = none) :
    r.begun s = [] := by
  have hlog : r.log s = [] := (hr.sound.strangers s hs).2
  refine List.filterMap_eq_nil_iff.mpr fun a ha => begunTo?_of_mark? ?_
  exact List.filterMap_eq_nil_iff.mp hlog a ha

/-- A subscriber that is registered in the same way in two registries stands as it would. -/
theorem standing_of_brings {T T' : Terms} {r r' v v' : Registry} (hr : Settled T r)
    (hr' : Settled T' r') (ha : Around request r r') (hu : request.sink.senders = [])
    (hv : Brings request r v) (hv' : Brings request r' v') :
    Standing request { session := r.sessions.length } { session := r'.sessions.length } v v' where
  alike := {
    toAround := around_steady ha hv.toSteady hv'.toSteady
    twin := by
      refine ⟨_, _, (hv.session? _).trans (if_pos rfl), (hv'.session? _).trans (if_pos rfl), ?_⟩
      rw [ha.config]
      exact .mk (g := {}) (k := request.sink) .nil (.of_unused hu) rfl rfl
    begun := by
      rw [hv.begun, hv'.begun, begun_of_stranger hr (session?_length r),
        begun_of_stranger hr' (session?_length r')] }
  length := rfl
  nodup := ⟨List.nodup_nil, List.nodup_nil⟩
  calls := by
    intro i i' hm
    cases hm with
    | call hk _ => cases hk

/-! ### Visits -/

/-- Whoever stands as it would is in both sets or in neither. -/
theorem mem_members_iff {T T' : Terms} {P : Party → Party → Prop} {s s' : SessionId}
    {r r' : Registry} (hr : Settled T r) (hr' : Settled T' r') (h : Alike request P s s' r r') :
    s ∈ r.members ↔ s' ∈ r'.members := by
  obtain ⟨x, x', hx, hx', ht⟩ := h.twin
  have hstage : x'.stage = x.stage := by cases ht; rfl
  rw [hr.sound.mem_iff s, hr'.sound.mem_iff s', hx, hx']
  simp only [Option.some.injEq, exists_eq_left', hstage]

/-- The calls other than the loop that sweeps stay as they are. -/
def SameCalls (r v : Registry) : Prop :=
  ∀ i, i ≠ 0 → i < r.calls.length → v.calls[i]? = r.calls[i]?

/-- The calls that were made for a name are none of the loops. -/
theorem Sound.sameCalls (h : Sound config d) (he : d.lookup? name = some e)
    (hv : SameCalls d.registry r) : ∀ i ∈ e.calls, r.calls[i]? = d.registry.calls[i]? := by
  obtain ⟨_, -, hstand⟩ := h.like he
  intro i hi
  have hne : i ≠ 0 := fun heq => zero_not_mem h hstand (heq ▸ hi)
  exact hv i hne (hstand.lt_length.1 i hi)

/-- Visits in two registries leave what belongs to a name as it would stand. -/
theorem Like.visit (h : Like name request d d') (hs : Sound config d) (hs' : Sound config d')
    {f : SessionId → Registry → Registry} {ss ss' : List SessionId} {r r' : Registry}
    (hv : Visits f ss d.registry r) (hv' : Visits f ss' d'.registry r')
    (hmem : ∀ {P s s'}, Alike request P s s' d.registry d'.registry → (s ∈ ss ↔ s' ∈ ss'))
    (hf : ∀ {P s s' u u'}, Alike request P s s' u u' → Alike request P s s' (f s u) (f s' u'))
    (hc : SameCalls d.registry r) (hc' : SameCalls d'.registry r')
    (hclock : r'.calls[0]? = r.calls[0]?) :
    Like name request (d.withRegistry r) (d'.withRegistry r') where
  around := around_steady h.around hv.steady hv'.steady
  clock := hclock
  entry := by
    rcases h.entry with hnone | ⟨e, e', he, he', hstand⟩
    · exact .inl hnone
    · refine .inr ⟨e, e', he, he', ?_, hstand.length, hstand.nodup, ?_⟩
      · exact hv.alike hv' hstand.alike (hmem hstand.alike) fun _ _ => hf
      · intro i i' hm
        obtain ⟨c, c', hget, hget', ht⟩ := hstand.calls i i' hm
        obtain ⟨hi, hi'⟩ := hm.mem
        exact ⟨c, c', (hs.sameCalls he hc i hi).trans hget, (hs'.sameCalls he' hc' i' hi').trans hget',
          ht⟩

/-- Visits that a subscriber does not notice pass its name by. -/
theorem passesBy_visit (hs : Sound config d) (hsteady : Steady d.registry r)
    (hb : ∀ e, d.lookup? name = some e → Beside e.session d.registry r)
    (hc : SameCalls d.registry r) (hclock : r.calls[0]? = d.registry.calls[0]?) :
    PassesBy name d (d.withRegistry r) :=
  ⟨hsteady, hclock, rfl, hb, fun _ he => hs.sameCalls he hc⟩

/-! ### Live batches -/

theorem sameCalls_publishLive (r : Registry) (b : Batch Nat) :
    SameCalls r (r.publishLive b).1 ∧ (r.publishLive b).1.calls[0]? = r.calls[0]? := by
  have hcalls : (r.publishLive b).1.calls = r.calls := (effect_publishLive (q := none)).calls
  rw [SameCalls, hcalls]
  exact ⟨fun _ _ _ => rfl, rfl⟩

theorem publishLive_of_invalid {b : Batch Nat} (hb : ¬ b.size = 1) (r : Registry) :
    (r.publishLive b).1 = r := by
  simp [publishLive, hb]

theorem like_publishLive (h : Like name request d d') (hs : Sound config d)
    (hs' : Sound config d') (b : Batch Nat) :
    Like name request (d.withRegistry (d.registry.publishLive b).1)
      (d'.withRegistry (d'.registry.publishLive b).1) := by
  by_cases hb : b.size = 1
  · obtain ⟨hc, hclock⟩ := sameCalls_publishLive d.registry b
    obtain ⟨hc', hclock'⟩ := sameCalls_publishLive d'.registry b
    exact h.visit hs hs' (visits_publishLive b hs.settled.sound.nodup hb)
      (visits_publishLive b hs'.settled.sound.nodup hb) (mem_members_iff hs.settled hs'.settled)
      alike_offer hc hc' (by rw [hclock, hclock', h.clock])
  · rw [publishLive_of_invalid hb, publishLive_of_invalid hb]
    exact h

/-- A batch that a subscriber does not want to see passes it by. -/
theorem passesBy_publishLive (h : Like name request d d') (hs : Sound config d) {b : Batch Nat}
    (hb : b.items.all request.filter = false) :
    PassesBy name d (d.withRegistry (d.registry.publishLive b).1) := by
  by_cases hsize : b.size = 1
  · have hv := visits_publishLive b hs.settled.sound.nodup hsize
    obtain ⟨hc, hclock⟩ := sameCalls_publishLive d.registry b
    refine passesBy_visit hs hv.steady ?_ hc hclock
    intro e he
    rcases h.entry with ⟨hnone, -⟩ | ⟨e', _, he', -, hstand⟩
    · rw [hnone] at he
      cases he
    · obtain rfl := Option.some.inj (he.symm.trans he')
      obtain ⟨x, x', hx, -, ht⟩ := hstand.alike.twin
      -- the offer is the only thing that a member notices, and it changes nothing
      have hrejects : x.accepts b = false := by
        cases ht with
        | mk _ _ _ hfilter =>
          rw [Session.accepts, hfilter]
          exact hb
      by_cases hmem : e.session ∈ d.registry.members
      · obtain ⟨u, hu, hlast⟩ := hv.met _ hmem
        have hsame : u.offer b e.session = (u, false) :=
          offer_of_rejected (hu.session?.trans hx) hrejects
        rw [hsame] at hlast
        exact hu.trans hlast
      · exact hv.missed _ hmem
  · rw [publishLive_of_invalid hsize]
    exact .refl name d

/-! ### Sweeps -/

/-- Whoever stands as it would is cancelled in both registries or in neither. -/
theorem mem_cancelled_iff {T T' : Terms} {P : Party → Party → Prop} {s s' : SessionId}
    {r r' : Registry} (hr : Settled T r) (hr' : Settled T' r') (h : Alike request P s s' r r') :
    s ∈ r.members.filter r.isCancelled ↔ s' ∈ r'.members.filter r'.isCancelled := by
  rw [List.mem_filter, List.mem_filter, mem_members_iff hr hr' h, alike_isCancelled h]

theorem sameCalls_sweep {T : Terms} (hr : Settled T r) (hh : r.hooks = {}) {c : Call}
    (hclock : r.calls[0]? = some c) : SameCalls r (r.run r.sweepActions) ∧
      (r.run r.sweepActions).calls[0]? = r.calls[0]? := by
  obtain ⟨-, c', hcalls⟩ := visits_sweep hr hh
  exact ⟨fun i _ hi => getElem?_of_append hcalls hi,
    getElem?_of_append hcalls (List.getElem?_eq_some_iff.mp hclock).1⟩

theorem like_sweep (h : Like name request d d') (hs : Sound config d) (hs' : Sound config d') :
    Like name request (d.withRegistry (d.registry.run d.registry.sweepActions))
      (d'.withRegistry (d'.registry.run d'.registry.sweepActions)) := by
  obtain ⟨l, hl, _⟩ := hs.loop
  obtain ⟨l', hl', _⟩ := hs'.loop
  obtain ⟨hc, hclock⟩ := sameCalls_sweep hs.settled hs.hooks hl
  obtain ⟨hc', hclock'⟩ := sameCalls_sweep hs'.settled hs'.hooks hl'
  exact h.visit hs hs' (visits_sweep hs.settled hs.hooks).1 (visits_sweep hs'.settled hs'.hooks).1
    (mem_cancelled_iff hs.settled hs'.settled) (fun ha => (alike_detach ha .cancelled).1) hc hc'
    (by rw [hclock, hclock', h.clock])

/-- A sweep passes by those whose connection has not been cancelled. -/
theorem passesBy_sweep (h : Like name request d d') (hs : Sound config d)
    (hgone : ∀ t, request.token = some t → t ∉ d.registry.cancelledTokens) :
    PassesBy name d (d.withRegistry (d.registry.run d.registry.sweepActions)) := by
  obtain ⟨l, hl, _⟩ := hs.loop
  have hv := (visits_sweep hs.settled hs.hooks).1
  obtain ⟨hc, hclock⟩ := sameCalls_sweep hs.settled hs.hooks hl
  refine passesBy_visit hs hv.steady ?_ hc hclock
  intro e he
  -- the sweep misses the subscriber, whose own signal has not been given
  apply hv.missed
  rw [List.mem_filter, not_and]
  intro _
  rcases h.entry with ⟨hnone, -⟩ | ⟨e', _, he', -, hstand⟩
  · rw [hnone] at he
    cases he
  · obtain rfl := Option.some.inj (he.symm.trans he')
    obtain ⟨x, _, hx, -, ht⟩ := hstand.alike.twin
    cases ht with
    | mk _ _ htoken _ =>
      rw [isCancelled, hx]
      simp only [Option.bind_some, htoken]
      cases ht : request.token with
      | none => simp
      | some t => simpa using hgone t ht

/-- The loop that sweeps begins its passes at the same times. -/
theorem like_sweepDue (h : Like name request d d') (hs : Sound config d) (hs' : Sound config d') :
    Like name request (d.withRegistry (d.registry.run d.registry.sweepDueActions))
      (d'.withRegistry (d'.registry.run d'.registry.sweepDueActions)) := by
  obtain ⟨l, hl, hpass⟩ := hs.loop
  have hl' : d'.registry.calls[0]? = some (.sweepLoop l) := h.clock.trans hl
  -- the loops and the times are the same, so that a pass is due in both directories or in neither
  by_cases hdue : l.next ≤ d.registry.nanos
  · have hdue' : l.next ≤ d'.registry.nanos := by
      rw [h.around.nanos]
      exact hdue
    obtain ⟨hv, hcalls⟩ := visits_sweepDue hs.settled hs.hooks hl hpass hs.running hdue
    obtain ⟨hv', hcalls'⟩ := visits_sweepDue hs'.settled hs'.hooks hl' hpass hs'.running hdue'
    have hset {r v : Registry} {c : Call} (hv : v.calls = r.calls.set 0 c) : SameCalls r v := by
      intro i hi _
      rw [hv, List.getElem?_set_ne (Ne.symm hi)]
    refine h.visit hs hs' hv hv' (mem_cancelled_iff hs.settled hs'.settled)
      (fun ha => (alike_detach ha .cancelled).1) (hset hcalls) (hset hcalls') ?_
    rw [hcalls, hcalls', List.getElem?_set_self (List.getElem?_eq_some_iff.mp hl).1,
      List.getElem?_set_self (List.getElem?_eq_some_iff.mp hl').1, h.around.nanos]
  · have hdue' : ¬ l.next ≤ d'.registry.nanos := by
      rw [h.around.nanos]
      exact hdue
    rw [run_sweepDue_of_early hl hpass hs.running hdue,
      run_sweepDue_of_early hl' hpass hs'.running hdue']
    exact h

end Directory

end Multicast
