import Multicast.Proofs.Registry.CallList
import Multicast.Proofs.Traffic.Growth

/-! What a cancelled subscriber gets still. Whether a subscriber is cancelled is asked when a batch is
taken up for it, and is not asked again when its write begins. So what is pending or stands in line
at the cancellation may be written afterwards, each batch once at most; but nothing is added to it. -/

namespace Multicast

/-- What a hand that stands in line for the subscriber is to deliver. -/
def Hand.inLine? (s : SessionId) : Hand → Option (DeliveryKind × Batch Nat)
  | .line _ kind t b => if t = s then some (kind, b) else none
  | _ => none

/-- What stands in line for a subscriber. -/
def inLine (s : SessionId) (H : Multiset Hand) : Multiset (DeliveryKind × Batch Nat) :=
  H.filterMap (Hand.inLine? s)

/-- Whether a write is what is written when a batch is delivered. -/
def Hooks.Writes (hooks : Hooks) (written source : DeliveryKind × Batch Nat) : Prop :=
  written.1 = source.1 ∧ ∃ x, written.2 = hooks.process x source.2

/-- The batches in the queue of a subscriber. -/
def Registry.pending (r : Registry) (s : SessionId) : Multiset (Batch Nat) :=
  ((r.session? s).map (·.queue.heap.contents)).getD 0

/-- A registry with what its calls and workers have in hand. -/
def Registry.traffic (r : Registry) : Traffic := ⟨r, r.hands⟩

namespace Traffic

/-- What has been taken up for a subscriber and is not being written yet. -/
def waiting (a : Traffic) (s : SessionId) : Multiset (DeliveryKind × Batch Nat) :=
  (a.registry.pending s).map (Prod.mk .live) + inLine s a.hands

/-- What begins to be written to a subscriber, `new`, the latest first, is taken from what waits for
it, and nothing joins that. -/
def Spends (hooks : Hooks) (s : SessionId) (a b : Traffic) : Prop :=
  ∃ new sources, b.registry.begun s = new ++ a.registry.begun s ∧
    List.Forall₂ hooks.Writes new sources ∧
    (sources : Multiset (DeliveryKind × Batch Nat)) + b.waiting s ≤ a.waiting s

end Traffic

open Registry

variable {r v : Registry} {s t : SessionId} {x y : Session} {H G : Multiset Hand} {hooks : Hooks}
  {path kind : DeliveryKind} {b : Batch Nat}

theorem inLine_mono (h : G ≤ H) : inLine s G ≤ inLine s H := Multiset.filterMap_le_filterMap _ h

theorem inLine_line (s : SessionId) :
    inLine s (.line path kind s b ::ₘ H) = (kind, b) ::ₘ inLine s H :=
  Multiset.filterMap_cons_some _ _ _ (if_pos rfl)

theorem inLine_line_of_ne (h : t ≠ s) : inLine s (.line path kind t b ::ₘ H) = inLine s H :=
  Multiset.filterMap_cons_none _ _ (if_neg h)

theorem inLine_cons {h : Hand} (hh : h.inLine? s = none) : inLine s (h ::ₘ H) = inLine s H :=
  Multiset.filterMap_cons_none _ _ hh

/-- A hand that changes does not get into a line. -/
theorem inLine_change {g : Hand} (h : Hand) (hg : g.inLine? s = none) :
    inLine s (g ::ₘ H) ≤ inLine s (h ::ₘ H) := by
  rw [inLine_cons hg]
  exact inLine_mono (Multiset.le_cons_self _ _)

namespace Registry

theorem exists_of_isCancelled (hc : r.isCancelled s = true) : ∃ x, r.session? s = some x := by
  unfold isCancelled at hc
  cases hx : r.session? s with
  | none => simp [hx] at hc
  | some x => exact ⟨x, rfl⟩

theorem pending_of_session? (hx : r.session? s = some x) :
    r.pending s = x.queue.heap.contents := by
  rw [pending, hx]
  rfl

/-- Nothing joins what is pending when the queue of one subscriber does not grow. -/
theorem pending_put_le (hx : r.session? t = some x)
    (hy : y.queue.heap.contents ≤ x.queue.heap.contents) (es : List Event) (s : SessionId) :
    (r.put t y es).pending s ≤ r.pending s := by
  by_cases hst : s = t
  · subst hst
    rw [pending_of_session? (session?_put_self hx y es), pending_of_session? hx]
    exact hy
  · rw [pending, session?_put_of_ne r hst]
    exact le_rfl

end Registry

namespace Traffic

theorem waiting_le (hp : v.pending s ≤ r.pending s)
    (hh : inLine s G ≤ inLine s H) :
    waiting ⟨v, G⟩ s ≤ waiting ⟨r, H⟩ s :=
  add_le_add (Multiset.map_le_map hp) hh

namespace Spends

variable {a b c : Traffic}

/-- Nothing is written, and nothing joins what waits. -/
theorem of_le (hb : b.registry.begun s = a.registry.begun s) (hw : b.waiting s ≤ a.waiting s) :
    Spends hooks s a b := by
  refine ⟨[], [], hb, .nil, ?_⟩
  rw [Multiset.coe_nil, zero_add]
  exact hw

theorem refl (a : Traffic) : Spends hooks s a a := of_le rfl le_rfl

theorem trans (h : Spends hooks s a b) (h' : Spends hooks s b c) : Spends hooks s a c := by
  obtain ⟨new, sources, hbegun, hwrites, hle⟩ := h
  obtain ⟨new', sources', hbegun', hwrites', hle'⟩ := h'
  refine ⟨new' ++ new, sources' ++ sources, ?_, List.rel_append hwrites' hwrites, ?_⟩
  · rw [hbegun', hbegun, List.append_assoc]
  · have hsources : ((sources' ++ sources : List _) : Multiset (DeliveryKind × Batch Nat)) =
        (sources : Multiset _) + (sources' : Multiset _) := by
      rw [← Multiset.coe_add, add_comm]
    calc ((sources' ++ sources : List _) : Multiset (DeliveryKind × Batch Nat)) + c.waiting s
        = (sources : Multiset _) + ((sources' : Multiset _) + c.waiting s) := by
          rw [hsources, add_assoc]
      _ ≤ (sources : Multiset _) + b.waiting s := add_le_add_right hle' _
      _ ≤ a.waiting s := hle

theorem of_aside (hb : v.begun s = r.begun s) (hp : v.pending s ≤ r.pending s)
    (hh : inLine s G ≤ inLine s H) :
    Spends hooks s ⟨r, H⟩ ⟨v, G⟩ :=
  of_le hb (waiting_le hp hh)

theorem transit (hc : a.registry.isCancelled s = true) (hhooks : a.registry.hooks = hooks)
    (h : Transit a b) : Spends hooks s a b := by
  cases h with
  | note e he => exact of_aside (begun_note (begunTo?_of_aside he s)) le_rfl le_rfl
  | count | roster => exact of_aside rfl le_rfl le_rfl
  | touch hx hy =>
    exact of_aside (begun_put_append [] s) (pending_put_le hx hy.pending.le _ s) le_rfl
  | @discard r H t x who hx =>
    have hempty : x.remove.queue.heap.contents ≤ x.queue.heap.contents := Multiset.zero_le _
    exact of_aside (begun_put_append _ s) (pending_put_le hx hempty _ s) le_rfl
  | @accept r H t x who b hx hcancelled haccepts =>
    -- whoever gets something new is not cancelled
    have hst : s ≠ t := by
      rintro rfl
      rw [hc] at hcancelled
      cases hcancelled
    have hpending : (r.put t (x.withHeap (x.queue.heap.push b)) [.enqueued who b]).pending s =
        r.pending s := by
      rw [pending, pending, session?_put_of_ne r hst]
    exact of_aside (begun_put_append _ s) hpending.le (inLine_cons rfl).le
  | @take r H t x b rest hx hb =>
    have hcontents := Heap.contents_of_pop? hb
    by_cases hst : t = s
    · subst hst
      -- what was pending stands in line now
      have hbefore : r.pending t = b ::ₘ rest.contents := by
        rw [pending_of_session? hx, hcontents]
      have hafter : (r.put t (x.withHeap rest) []).pending t = rest.contents :=
        pending_of_session? (session?_put_self hx _ [])
      refine of_le (begun_put_append [] t) (le_of_eq ?_)
      simp only [waiting]
      rw [hafter, hbefore, inLine_line, Multiset.map_cons, Multiset.cons_add, Multiset.add_cons]
    · have hrest : (x.withHeap rest).queue.heap.contents ≤ x.queue.heap.contents :=
        hcontents ▸ Multiset.le_cons_self _ _
      exact of_aside (begun_put_append [] s) (pending_put_le hx hrest _ s)
        (inLine_line_of_ne hst).le
  | @join r H t x path b hx hpath hcancelled =>
    have hst : t ≠ s := by
      rintro rfl
      rw [hc] at hcancelled
      cases hcancelled
    exact of_aside rfl le_rfl (inLine_line_of_ne hst).le
  | quit | rest | abandon => exact of_aside rfl le_rfl (inLine_mono (Multiset.le_cons_self _ _))
  | skip path kind b who position => exact of_aside (begun_note rfl) le_rfl (inLine_change _ rfl)
  | @begin r H t x path b d who sink hx hwho hframe hw =>
    have hpending := pending_put_le hx (y := { x with sink := sink }) le_rfl
      [.writeBegun who d.kind d.keepAlive d.frame] s
    by_cases hst : t = s
    · subst hst
      -- what stood in line is what is written
      have hwrites : hooks.Writes (d.kind, d.frame) (d.kind, b) := by
        rw [← hhooks]
        exact ⟨rfl, x, hframe⟩
      refine ⟨[(d.kind, d.frame)], [(d.kind, b)], ?_, .cons hwrites .nil, ?_⟩
      · rw [begun_put_append]
        simp [Event.begunTo?, hwho]
      · have hbusy : inLine t (.busy path t d ::ₘ H) = inLine t H := inLine_cons rfl
        have hless : waiting ⟨_, .busy path t d ::ₘ H⟩ t ≤ waiting ⟨r, H⟩ t :=
          waiting_le hpending hbusy.le
        have hline : waiting ⟨r, .line path d.kind t b ::ₘ H⟩ t =
            (d.kind, b) ::ₘ waiting ⟨r, H⟩ t := by
          simp only [waiting]
          rw [inLine_line, Multiset.add_cons]
        rw [hline, Multiset.coe_singleton, Multiset.singleton_add]
        exact Multiset.cons_le_cons _ hless
    · have hnone : who.id ≠ s := fun hid => hst (hwho.symm.trans hid)
      refine of_aside ?_ hpending (inLine_change _ rfl)
      rw [begun_put_append]
      simp [Event.begunTo?, hnone]
  | goOn | finish => exact of_aside rfl le_rfl (inLine_change _ rfl)
  | @succeed r H t x path d who took hx hwho hw =>
    obtain ⟨cursor, lastSent, -, hserved⟩ := x.exists_served_eq d
    have hqueue : (x.served d).queue.heap.contents ≤ x.queue.heap.contents := by
      rw [hserved]
    let es : List Event := [.writeSucceeded who d.kind d.keepAlive d.frame]
    have hbegun : (r.put t (x.served d) es).begun s = r.begun s := begun_put_append es s
    have hpending := pending_put_le hx hqueue es s
    exact of_aside hbegun hpending (inLine_change _ rfl)
  | fail path d d' who e => exact of_aside (begun_note rfl) le_rfl (inLine_change _ rfl)
  | reportLive | reportHistorical | reportPings =>
    exact of_aside rfl le_rfl (inLine_mono (Multiset.le_add_left _ _))
  | crash => exact of_aside rfl le_rfl (inLine_cons rfl).le

theorem transfer (hc : a.registry.isCancelled s = true) (hhooks : a.registry.hooks = hooks)
    (h : Transfer a b) : Spends hooks s a b := by
  cases h with
  | transit h => exact transit hc hhooks h
  | beside => exact of_aside rfl le_rfl le_rfl
  | @work r H t x w hx =>
    have hpending := pending_put_le hx (y := { x with worker := w }) le_rfl [] s
    exact of_aside (begun_put_append [] s) hpending le_rfl
  | @enrol r H request =>
    -- whoever comes in now is another
    obtain ⟨x, hx⟩ := exists_of_isCancelled hc
    have hlt : s < r.sessions.length := (List.getElem?_eq_some_iff.mp hx).1
    have hpending : (r.enrol request).1.pending s = r.pending s := by
      rw [pending, pending, session?_enrol, if_neg (Nat.ne_of_lt hlt)]
    exact of_aside rfl hpending.le le_rfl

theorem transfers (hc : a.registry.isCancelled s = true) (h : Transfers a b) :
    Spends a.registry.hooks s a b := by
  induction h with
  | refl => exact refl a
  | tail hchain hstep ih =>
    -- a cancellation is not taken back on the way
    have hg := Transfers.grows hchain
    exact ih.trans (transfer (hg.isCancelled hc) hg.hooks hstep)

end Spends

end Traffic

namespace Registry

theorem sendHistorical_of_cancelled (hc : r.isCancelled s = true) (b : Batch Nat) :
    r.sendHistorical s b = r.addCall (.returned (.ok (.flag false))) := by
  have hcalled : (r.addCall .crashed).isCancelled s = true := hc
  rw [sendHistorical, startCall, hcalled]
  exact setCall_addCall r .crashed _

/-- Once a subscriber is cancelled nothing is taken up for it any more. Each write to it that begins
later is of a batch that was pending or stood in line for it when it was cancelled, each of these
begins once at most, and if there were none then none begins. Who sends it a batch is told that it is
not there. -/
theorem nothing_new_for_cancelled (config : Config) (hooks : Hooks) (actions : List Action)
    {s : SessionId} (hc : ((new config hooks).run actions).isCancelled s = true)
    (more : List Action) :
    let r := (new config hooks).run actions
    let v := r.run more
    r.traffic.Spends hooks s v.traffic ∧
      (r.traffic.waiting s = 0 → v.begun s = r.begun s) ∧
      v.isCancelled s = true ∧
      ∀ b, v.sendHistorical s b = v.addCall (.returned (.ok (.flag false))) := by
  intro r v
  have hsettled : Settled (.any config hooks True) r :=
    settled_run rfl rfl fun action _ => action.keeps_any
  have hhooks : r.hooks = hooks := by
    have hg := (handsOver_new_run config hooks actions).grows
    exact hg.hooks.trans (new_idle config hooks).1
  have hover : Transfers r.traffic v.traffic := handsOver_run hsettled more
  have hspends := Traffic.Spends.transfers hc hover
  have hcancelled : v.isCancelled s = true := hover.grows.isCancelled hc
  refine ⟨hhooks ▸ hspends, ?_, hcancelled, sendHistorical_of_cancelled hcancelled⟩
  intro hnone
  -- from nothing no write can be taken
  obtain ⟨new, sources, hbegun, hwrites, hle⟩ := hspends
  have hsources : (sources : Multiset (DeliveryKind × Batch Nat)) = 0 := by
    apply Multiset.le_zero.mp
    rw [← hnone]
    exact (Multiset.le_add_right _ _).trans hle
  obtain rfl := (Multiset.coe_eq_zero sources).mp hsources
  obtain rfl := List.forall₂_nil_right_iff.mp hwrites
  exact hbegun

/-- A ping that stands in line at the cancellation is written afterwards. What is published, and the
pings that are asked for, after the cancellation are not. -/
theorem nothing_new_for_cancelled_of_waiting_ping :
    let r := (new {} {}).run ([
      .subscribe { token := some "t", sink := .scripted [.hold] }, .run (.call 1), .activate 0,
      .publishLive ⟨[⟨1, ""⟩]⟩] ++ List.replicate 3 (.run (.worker 0)) ++ [.ping, .cancel "t"])
    let v := r.run ([.publishLive ⟨[⟨9, ""⟩]⟩, .ping, .publishHistorical ⟨[⟨8, ""⟩]⟩,
      .release 0 .ok] ++ List.replicate 2 (.run (.worker 0)) ++
      List.replicate 3 (.run (.call 2)) ++ List.replicate 3 (.run (.worker 0)))
    r.isCancelled 0 = true ∧ r.traffic.waiting 0 = {(.ping, ⟨[]⟩)} ∧
      r.traffic.Spends {} 0 v.traffic ∧ v.traffic.waiting 0 = 0 ∧
      v.begun 0 = [(.ping, ⟨[]⟩), (.live, ⟨[⟨1, ""⟩]⟩)] := by
  intro r v
  have hc : r.isCancelled 0 = true := by decide +kernel
  have hspends : r.traffic.Spends {} 0 v.traffic := (nothing_new_for_cancelled {} {} _ hc _).1
  exact ⟨hc, by decide +kernel, hspends, by decide +kernel, by decide +kernel⟩

/-- One batch is being written, one is pending and one stands in line when the subscriber is
cancelled. The writes of both begin when the first is over. -/
theorem cancelled_subscriber_is_written :
    let r := (new {} {}).run ([
      .subscribe { token := some "t", sink := .scripted [.hold] }, .run (.call 1), .activate 0,
      .publishLive ⟨[⟨1, ""⟩]⟩, .publishLive ⟨[⟨7, ""⟩]⟩] ++
      List.replicate 3 (.run (.worker 0)) ++ [.sendHistorical 0 ⟨[⟨5, ""⟩]⟩, .cancel "t"])
    let v := r.run ([.release 0 .ok] ++ List.replicate 2 (.run (.worker 0)) ++
      List.replicate 3 (.run (.call 2)) ++ List.replicate 4 (.run (.worker 0)))
    r.isCancelled 0 = true ∧ r.begun 0 = [(.live, ⟨[⟨1, ""⟩]⟩)] ∧
      v.begun 0 = [(.live, ⟨[⟨7, ""⟩]⟩), (.historical, ⟨[⟨5, ""⟩]⟩), (.live, ⟨[⟨1, ""⟩]⟩)] := by
  intro r v
  exact ⟨by decide +kernel, by decide +kernel, by decide +kernel⟩

end Registry

end Multicast
