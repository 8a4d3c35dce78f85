import Multicast.Proofs.Registry.Order
import Multicast.Proofs.Registry.Run

/-! The order in which a subscriber gets its data, in every run. Live batches, backfills and batches
sent to one subscriber alone overtake each other freely on their way, but none is written after data
that it may not follow. -/

namespace Multicast

namespace Registry

/-- The writes of data to a subscriber in the order in which they began. -/
def dataWrites (r : Registry) (s : SessionId) : List DataWrite :=
  (WriteMark.started (r.log s)).reverse

/-- The runs in which published batches are in the order of their ids. -/
def orderedTerms (config : Config) (hooks : Hooks) : Terms where
  policy := config.stalePolicy
  process := hooks.process
  admits b := b.ids.Pairwise (· ≤ ·)
  mayDrop := True
  mayJoin := True

/-- The writes of data to each subscriber come in order in every run. -/
theorem dataWrites_of_run {config : Config} {hooks : Hooks} {actions : List Action}
    (hb : ∀ action ∈ actions, ∀ b, action.published? = some b → b.ids.Pairwise (· ≤ ·))
    (hp : ∀ x b, (hooks.process x b).ids = b.ids) (s : SessionId) :
    (∀ w ∈ ((new config hooks).run actions).dataWrites s, ∃ i, w.frame.lastId? = some i) ∧
      (((new config hooks).run actions).dataWrites s).Pairwise
        (DataWrite.Before config.stalePolicy) := by
  have hkeep : (orderedTerms config hooks).KeepOrder := ⟨fun _ hadmits => hadmits, hp⟩
  have hterms : ∀ action ∈ actions, action.Keeps (orderedTerms config hooks) :=
    fun action hmem => ⟨hb action hmem, fun _ => trivial, trivial⟩
  unfold dataWrites
  cases hx : ((new config hooks).run actions).session? s with
  | none =>
    -- nothing was ever written to somebody who is not there
    have hsettled := settled_run rfl rfl hterms
    rw [(hsettled.sound.strangers s hx).2]
    exact ⟨nofun, List.Pairwise.nil⟩
  | some x =>
    -- the order rests on the line at the gate, so that both are carried through the run
    have hboth := run_lane_induction
      (I := fun l => l.Gated ∧ l.Ordered (orderedTerms config hooks)) rfl rfl hterms
      (fun request room => ⟨Lane.gated_fresh request room, Lane.ordered_fresh request room⟩)
      (fun l l' hl h t => ⟨h.1.turn t, h.2.turn hkeep hl h.1 t⟩) hx
    exact ⟨fun w hw => hboth.2.hasId w (List.mem_reverse.mp hw),
      List.pairwise_reverse.mpr hboth.2.pairwise⟩

/-- Data comes in order. If every published batch is in the order of its ids and subscribers get
batches with these ids, then in every run each write of data may come after every earlier one that
has not crashed; and if none has crashed, the ids of the writes never go back, and never stand still
under the stricter policy. -/
theorem dataWrites_in_order (config : Config) (hooks : Hooks) (actions : List Action)
    (hb : ∀ action ∈ actions, ∀ b, action.published? = some b → b.ids.Pairwise (· ≤ ·))
    (hp : ∀ x b, (hooks.process x b).ids = b.ids) (s : SessionId) :
    let writes := ((new config hooks).run actions).dataWrites s
    (∀ w ∈ writes, ∃ i, w.frame.lastId? = some i) ∧
      writes.Pairwise (DataWrite.Before config.stalePolicy) ∧
      ((∀ w ∈ writes, w.crashed = false) →
        (writes.filterMap fun w => w.frame.lastId?).Pairwise config.stalePolicy.Follows) := by
  intro writes
  obtain ⟨hids, hpairwise⟩ := dataWrites_of_run hb hp s
  refine ⟨hids, hpairwise, ?_⟩
  intro hcrash
  have hgood : writes.Pairwise fun w v =>
      w.crashed = false ∧ DataWrite.Before config.stalePolicy w v :=
    hpairwise.imp_of_mem fun hw _ hbefore => ⟨hcrash _ hw, hbefore⟩
  refine List.Pairwise.filterMap _ ?_ hgood
  rintro w v ⟨hw, hbefore⟩ i hi j hj
  rcases hbefore with hbad | ⟨i', j', hi', hj', hfollows⟩
  · -- the earlier write has not crashed
    cases hw.symm.trans hbad
  · obtain rfl := Option.some.inj (hi'.symm.trans hi)
    obtain rfl := Option.some.inj (hj'.symm.trans hj)
    exact hfollows

/-- A batch of two items that is sent past the queue overtakes a live one, and the worker writes the
live one after it. -/
theorem dataWrites_in_order_of_overtaking :
    let actions : List Action := [.subscribe {}, .run (.call 1), .activate 0,
      .publishLive ⟨[⟨7, ""⟩]⟩, .sendHistorical 0 ⟨[⟨3, ""⟩, ⟨5, ""⟩]⟩, .run (.call 2),
      .run (.worker 0), .run (.call 2), .run (.worker 0), .run (.worker 0)]
    let writes := ((new {} {}).run actions).dataWrites 0
    (∀ action ∈ actions, ∀ b, action.published? = some b → b.ids.Pairwise (· ≤ ·)) ∧
      (∀ x b, (Hooks.process {} x b).ids = b.ids) ∧
      writes.map DataWrite.frame = [⟨[⟨3, ""⟩, ⟨5, ""⟩]⟩, ⟨[⟨7, ""⟩]⟩] ∧
      writes.Pairwise (DataWrite.Before .older) := by
  intro actions writes
  have hb : ∀ action ∈ actions, ∀ b, action.published? = some b → b.ids.Pairwise (· ≤ ·) := by
    simp [actions, Action.published?, Batch.ids]
  have hp : ∀ x b, (Hooks.process {} x b).ids = b.ids := fun _ _ => rfl
  exact ⟨hb, hp, by decide +kernel, (dataWrites_in_order {} {} actions hb hp 0).2.1⟩

/-- A write that crashes leaves the cursor behind and the subscriber registered, so that data with
smaller ids may be written after it. -/
theorem crashed_write_is_overtaken :
    let actions : List Action := [.subscribe { sink := .scripted [.crash] }, .run (.call 1),
      .sendHistorical 0 ⟨[⟨5, ""⟩]⟩, .run (.call 2), .run (.call 2),
      .sendHistorical 0 ⟨[⟨3, ""⟩]⟩, .run (.call 3), .run (.call 3)]
    let writes := ((new {} {}).run actions).dataWrites 0
    (∀ action ∈ actions, ∀ b, action.published? = some b → b.ids.Pairwise (· ≤ ·)) ∧
      (∀ x b, (Hooks.process {} x b).ids = b.ids) ∧
      ¬ (writes.filterMap fun w => w.frame.lastId?).Pairwise (StalePolicy.Follows .older) := by
  intro actions writes
  refine ⟨by simp [actions, Action.published?, Batch.ids], fun _ _ => rfl, ?_⟩
  intro hpairwise
  have hids : (writes.filterMap fun w => w.frame.lastId?) = [5, 3] := by decide +kernel
  rw [hids] at hpairwise
  have hle : 5 ≤ 3 := (List.pairwise_cons.mp hpairwise).1 3 List.mem_cons_self
  omega

end Registry

end Multicast
