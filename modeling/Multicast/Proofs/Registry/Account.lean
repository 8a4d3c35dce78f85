import Multicast.Proofs.Registry.Ledger
import Multicast.Proofs.Registry.Run

/-! What becomes of deliveries, in every run. A delivery reaches the sink just if its batch has
something new for the subscriber, and only a write of data that succeeds moves the cursor; so the
cursor, the batch sent last and the number of writes can be read off the history of writes. -/

namespace Multicast

/-- Whether a subscriber has been served with the same data before and after something. -/
structure Session.SameService (x y : Session) : Prop where
  cursor : y.cursor = x.cursor
  lastSent : y.lastSent = x.lastSent

theorem Session.SameService.refl (x : Session) : x.SameService x := ⟨rfl, rfl⟩

theorem Session.SameService.trans {x y z : Session} (h : x.SameService y) (h' : y.SameService z) :
    x.SameService z :=
  ⟨h'.cursor.trans h.cursor, h'.lastSent.trans h.lastSent⟩

variable {r : Registry} {s : SessionId} {x : Session} {p : Party} {b : Batch Nat}
  {kind : DeliveryKind} {d : Delivery}

namespace Registry

/-! ### Deliveries that change nothing -/

/-- A removal leaves alone what a subscriber has been served with. -/
theorem sameService_detach (hx : r.session? s = some x) (reason : RemovalReason) :
    ∃ y, (r.detach s reason).1.session? s = some y ∧ x.SameService y := by
  by_cases hs : x.stage = .removed
  · have hgone : ∀ y, r.session? s = some y → y.stage = .removed := by
      intro y hy
      obtain rfl := Option.some.inj (hx.symm.trans hy)
      exact hs
    rw [detach_of_removed hgone]
    exact ⟨x, hx, .refl x⟩
  · obtain ⟨es, _, hdetach⟩ := detach_eq hx hs reason
    rw [hdetach]
    exact ⟨x.remove, session?_put_self hx _ es, rfl, rfl⟩

/-- The beginning of a delivery changes at most the sink. -/
theorem sameService_beginDelivery (hx : r.session? s = some x) :
    ∃ y, (r.beginDelivery s p b kind).1.session? s = some y ∧ x.SameService y := by
  unfold beginDelivery
  rw [hx]
  dsimp only
  split
  · exact ⟨x, hx, .refl x⟩
  · exact ⟨_, session?_update hx _, rfl, rfl⟩

/-- A write that fails removes the subscriber at most. -/
theorem sameService_writeFailed {y : Session} (hy : r.session? s = some y) (h : x.SameService y)
    (e : SinkError) : ∃ z, (r.writeFailed s d e).1.session? s = some z ∧ x.SameService z := by
  have hnow : Registry.session? ((r.note (.writeFailed (r.nameOf s) d.kind e)).count
      (·.sinkFailure d.kind)) s = some y := hy
  obtain ⟨z, hz, hsame⟩ := sameService_detach hnow .sinkFailure
  unfold writeFailed
  dsimp only
  rcases hdetach : Registry.detach _ s .sinkFailure with ⟨w, found⟩
  rw [hdetach] at hz
  cases found with
  | true => exact ⟨z, session?_callAfter.trans hz, h.trans hsame⟩
  | false => exact ⟨z, hz, h.trans hsame⟩

/-- A keep-alive that is written counts as a write, and leaves the cursor alone. -/
theorem sameService_writeSucceeded {y : Session} (hy : r.session? s = some y)
    (h : x.SameService y) (hk : d.keepAlive = true) :
    ∃ z, (r.writeSucceeded s d).1.session? s = some z ∧ x.SameService z := by
  unfold writeSucceeded
  rw [hk]
  exact ⟨_, session?_update hy Session.recordWrite, h.cursor, h.lastSent⟩

/-- A delivery that goes on changes what its subscriber has been served with only when its write
succeeds, and then only if it is no keep-alive. -/
theorem sameService_deliveryStep (hx : r.session? s = some x) :
    (r.deliveryStep s p d).2 ≠ .done .written ∨ d.keepAlive = true →
      ∃ y, (r.deliveryStep s p d).1.session? s = some y ∧ x.SameService y := by
  unfold deliveryStep
  cases d.point with
  | writing point =>
    dsimp only
    rw [hx]
    dsimp only
    rcases x.sink.step r.now p d.frame point with ⟨sink, progress⟩
    have hnow := session?_update hx fun x => { x with sink := sink }
    have hsame : x.SameService { x with sink := sink } := ⟨rfl, rfl⟩
    have hcounted (f : Metrics → Metrics) : Registry.session?
        ((r.update s fun x => { x with sink := sink }).count f) s = some { x with sink := sink } :=
      hnow
    intro hd
    cases progress with
    | running point' => exact ⟨_, hnow, hsame⟩
    | crashed => exact ⟨_, hnow, hsame⟩
    | done result =>
      cases result with
      | ok _ =>
        -- the write has succeeded, so that only a keep-alive is left
        have hk : d.keepAlive = true := hd.resolve_left fun hne => hne rfl
        exact sameService_writeSucceeded (hcounted _) hsame hk
      | error e => exact sameService_writeFailed (hcounted _) hsame e
  | removing hook =>
    intro _
    dsimp only
    cases hook.step r.now with
    | running hook' => exact ⟨x, hx, .refl x⟩
    | crashed => exact ⟨x, hx, .refl x⟩
    | done result => exact ⟨x, session?_noteReturn.trans hx, .refl x⟩

/-! ### Deliveries that reach the sink -/

/-- Whether a batch has something that may come after what the subscriber has been served with. -/
def HasNews (r : Registry) (x : Session) (b : Batch Nat) : Prop :=
  ∃ i ∈ b.ids, ∀ c, x.cursor.position = some c → r.config.stalePolicy.Follows c i

/-- A delivery of data with news begins to write what the subscriber gets in place of the batch. -/
theorem beginDelivery_of_hasNews (hx : r.session? s = some x) (hk : kind ≠ .ping)
    (hb : b.isPing = false) (hn : r.HasNews x b) :
    ∃ d, (r.beginDelivery s p b kind).2 = .running d ∧ d.keepAlive = false ∧
      d.frame = r.hooks.process x b ∧
      (r.beginDelivery s p b kind).1.log s = .begun false (r.hooks.process x b) :: r.log s := by
  have hne : b.ids ≠ [] := by
    obtain ⟨i, hi, _⟩ := hn
    exact List.ne_nil_of_mem hi
  have hfresh : r.isStale x b = false := (Cursor.isStale_eq_false_iff _ _ hne).mpr hn
  have hdata : (decide (kind = .ping) || b.isPing) = false := by
    rw [hb, Bool.or_false]
    exact decide_eq_false hk
  rw [beginDelivery_of_fresh hx hdata (.inr hfresh)]
  exact ⟨_, rfl, rfl, rfl, List.filterMap_cons_some (if_pos rfl)⟩

/-- A delivery of data without news ends at once. -/
theorem beginDelivery_of_not_hasNews (hx : r.session? s = some x) (hk : kind ≠ .ping)
    (hb : b.isPing = false) (hn : ¬ r.HasNews x b) :
    (r.beginDelivery s p b kind).2 = .done .stale ∧
      (r.beginDelivery s p b kind).1.log s = r.log s := by
  -- a batch that is no keep-alive has items
  have hne : b.ids ≠ [] := by
    intro hids
    have hitems : b.items = [] := List.map_eq_nil_iff.mp hids
    rw [Batch.isPing, hitems] at hb
    cases hb
  have hstale : r.isStale x b = true := by
    rw [← Bool.not_eq_false]
    exact mt (Cursor.isStale_eq_false_iff _ _ hne).mp hn
  have hdata : (decide (kind = .ping) || b.isPing) = false := by
    rw [hb, Bool.or_false]
    exact decide_eq_false hk
  rw [beginDelivery_of_stale hx hdata hstale]
  exact ⟨rfl, rfl⟩

/-- A keep-alive is always written, whatever the cursor. -/
theorem beginDelivery_of_keepAlive (hx : r.session? s = some x)
    (hk : kind = .ping ∨ b.isPing = true) :
    ∃ d, (r.beginDelivery s p b kind).2 = .running d ∧ d.keepAlive = true ∧
      d.frame = r.hooks.process x b ∧
      (r.beginDelivery s p b kind).1.log s = .begun true (r.hooks.process x b) :: r.log s := by
  have hkeep : (decide (kind = .ping) || b.isPing) = true := by
    rw [Bool.or_eq_true, decide_eq_true_iff]
    exact hk
  rw [beginDelivery_of_fresh hx hkeep (.inl rfl)]
  exact ⟨_, rfl, rfl, rfl, List.filterMap_cons_some (if_pos rfl)⟩

/-! ### Every run -/

theorem ledger_of_run (config : Config) (hooks : Hooks) (actions : List Action)
    (hx : ((new config hooks).run actions).session? s = some x) :
    Lane.Ledger ⟨x, ((new config hooks).run actions).posts s,
      ((new config hooks).run actions).log s⟩ :=
  run_lane_induction (T := .any config hooks True) rfl rfl (fun action _ => action.keeps_any)
    Lane.ledger_fresh (fun _ _ _ h t => h.turn t) hx

/-- The accounts of deliveries. In every run the cursor of each subscriber is the largest id that was
delivered to it, the batch sent last is the latest one delivered, and the writes are all that have
succeeded; no delivery changes the first two but one whose write of data succeeds; a keep-alive always
reaches the sink, and a delivery of data does so just if its batch has an id that may come after the
cursor. -/
theorem deliveries_accounted (config : Config) (hooks : Hooks) (actions : List Action) :
    let r := (new config hooks).run actions
    r.config.stalePolicy = config.stalePolicy ∧ r.hooks.process = hooks.process ∧
      (∀ s x, r.session? s = some x →
        x.cursor.position = ((WriteMark.delivered (r.log s)).filterMap Batch.lastId?).max? ∧
          x.lastSent = (WriteMark.delivered (r.log s)).head? ∧
          x.writes = (r.log s).countP WriteMark.isWritten) ∧
      ∀ (v : Registry) s x p, v.session? s = some x →
        (∀ b kind, ∃ y, (v.beginDelivery s p b kind).1.session? s = some y ∧ x.SameService y) ∧
          (∀ d, (v.deliveryStep s p d).2 ≠ .done .written ∨ d.keepAlive = true →
            ∃ y, (v.deliveryStep s p d).1.session? s = some y ∧ x.SameService y) ∧
          (∀ b kind, kind = .ping ∨ b.isPing = true →
            ∃ d, (v.beginDelivery s p b kind).2 = .running d ∧ d.keepAlive = true ∧
              d.frame = v.hooks.process x b ∧
              (v.beginDelivery s p b kind).1.log s =
                .begun true (v.hooks.process x b) :: v.log s) ∧
          ∀ b kind, kind ≠ .ping → b.isPing = false →
            (v.HasNews x b →
              ∃ d, (v.beginDelivery s p b kind).2 = .running d ∧ d.keepAlive = false ∧
                d.frame = v.hooks.process x b ∧
                (v.beginDelivery s p b kind).1.log s =
                  .begun false (v.hooks.process x b) :: v.log s) ∧
            (¬ v.HasNews x b → (v.beginDelivery s p b kind).2 = .done .stale ∧
              (v.beginDelivery s p b kind).1.log s = v.log s) := by
  intro r
  have hsound : Sound (.any config hooks True) ⟨r, r.posts⟩ :=
    (settled_run rfl rfl fun action _ => action.keeps_any).sound
  refine ⟨hsound.policy, hsound.process, ?_, ?_⟩
  · intro s x hx
    have hledger := ledger_of_run config hooks actions hx
    exact ⟨hledger.cursor, hledger.lastSent, hledger.writes⟩
  · intro v s x p hx
    refine ⟨?_, ?_, ?_, ?_⟩
    · intro b kind
      exact sameService_beginDelivery hx
    · intro d
      exact sameService_deliveryStep hx
    · intro b kind hk
      exact beginDelivery_of_keepAlive hx hk
    · intro b kind hk hb
      constructor
      · intro hn
        exact beginDelivery_of_hasNews hx hk hb hn
      · intro hn
        exact beginDelivery_of_not_hasNews hx hk hb hn

end Registry

end Multicast
