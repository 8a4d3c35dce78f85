import Multicast.Proofs.Registry.Roll
import Multicast.Proofs.Registry.Run

/-! Who is registered, in every run. Membership, the stage of a subscriber, the notice of its removal
and its queue are changed at many places; they never disagree, and neither do the reported numbers
until the registry is dropped. -/

namespace Multicast

variable {T : Terms} {r : Registry} {config : Config} {hooks : Hooks} {actions : List Action}
  {s : SessionId} {x : Session}

theorem Settled.mem_subscribed_iff (h : Settled T r) :
    s ∈ r.subscribed ↔ ∃ x, r.session? s = some x := by
  rw [h.subscribed.mem_iff, List.mem_range]
  constructor
  · intro hs
    exact ⟨r.sessions[s], List.getElem?_eq_getElem hs⟩
  · rintro ⟨x, hx⟩
    exact (List.getElem?_eq_some_iff.mp hx).1

theorem Settled.length_subscribed (h : Settled T r) : r.subscribed.length = r.sessions.length := by
  rw [h.subscribed.length_eq, List.length_range]

/-- Membership, the stage, the notice of the removal and the queue agree. -/
theorem Sound.member_iff {a : Posted} (h : Sound T a) (hx : a.registry.session? s = some x) :
    (s ∈ a.registry.members ↔ x.stage ≠ .removed) ∧
      (s ∈ a.registry.members ↔ x.completed = false) ∧
      (s ∈ a.registry.members ↔ x.queue.closed = false) := by
  have hlawful := h.lawful s x hx
  have hstage : s ∈ a.registry.members ↔ x.stage ≠ .removed := by
    rw [h.mem_iff s, hx]
    simp only [Option.some.injEq, exists_eq_left']
  have hcompleted : x.completed = false ↔ x.stage ≠ .removed := by
    rw [← Bool.not_eq_true, not_iff_not]
    exact hlawful.completed
  exact ⟨hstage, hstage.trans hcompleted.symm, hstage.trans hlawful.open_iff.symm⟩

namespace Registry

theorem roll_new : Roll (new config hooks) := by
  obtain ⟨hsessions, hmembers, hmetrics⟩ := new_blank config hooks
  refine ⟨?_, fun _ => hsessions, ?_⟩
  · intro n hn
    rw [hmetrics] at hn
    cases hn
  · rw [hsessions, hmembers, hmetrics]
    rfl

/-- The reported numbers agree with the members in every run in which the registry is not
dropped. -/
theorem roll_run (hd : .drop ∉ actions) : Roll ((new config hooks).run actions) := by
  have hkeeps : ∀ action ∈ actions, action.Keeps (.any config hooks False) := by
    intro action hmem
    refine ⟨fun _ _ => trivial, ?_, trivial⟩
    rintro rfl
    exact hd hmem
  have hnew : Settled (.any config hooks False) (new config hooks) := settled_new rfl rfl
  exact roll_new.shifts hnew.sound not_false (reaches_run hnew hkeeps).shifts

/-- The set of subscribers. In every run each subscriber that was registered is at most once among
the members; it is there just if it is not removed, just if those who wait for its removal have not
been told, and just if its queue is open. Its worker is started when it is activated and not before,
and its stage only moves forward, whatever happens later. Until the registry is dropped the gauge
holds the number of members, and members and removals together are all who were registered. -/
theorem members_consistent (config : Config) (hooks : Hooks) (actions : List Action) :
    let r := (new config hooks).run actions
    r.subscribed.Nodup ∧
      (∀ s ∈ r.subscribed, ∃ x, r.session? s = some x ∧
        r.members.count s ≤ 1 ∧
        (s ∈ r.members ↔ x.stage ≠ .removed) ∧
        (s ∈ r.members ↔ x.completed = false) ∧
        (s ∈ r.members ↔ x.queue.closed = false) ∧
        (x.stage = .registered → x.queue.started = false ∧ x.worker = .absent) ∧
        (x.stage = .active → x.queue.started = true ∧ x.worker ≠ .absent) ∧
        ∀ more, ∃ y, (r.run more).session? s = some y ∧ x.stage.Leads y.stage) ∧
      (.drop ∉ actions →
        (r.metrics.sessions = none ∧ r.subscribed = [] ∨
          r.metrics.sessions = some r.members.length) ∧
        r.members.length + r.metrics.removals = r.subscribed.length) := by
  intro r
  have hsettled : Settled (.any config hooks True) r :=
    settled_run rfl rfl fun action _ => action.keeps_any
  refine ⟨?_, ?_, ?_⟩
  · exact hsettled.subscribed.nodup_iff.mpr List.nodup_range
  · intro s hs
    obtain ⟨x, hx⟩ := hsettled.mem_subscribed_iff.mp hs
    have hlawful := hsettled.sound.lawful s x hx
    obtain ⟨hstage, hcompleted, hopen⟩ := hsettled.sound.member_iff hx
    obtain ⟨habsent, hstarted⟩ := hlawful.worker_of_stage
    refine ⟨x, hx, List.nodup_iff_count_le_one.mp hsettled.sound.nodup s, hstage, hcompleted, hopen,
      fun h => ⟨hlawful.idle h, habsent h⟩, fun h => ⟨hlawful.running h, hstarted h⟩,
      ?_⟩
    intro more
    -- what is settled now goes on to be so, whatever follows
    have hmore := reaches_run hsettled fun action (_ : action ∈ more) => action.keeps_any
    exact hmore.shifts.known hx
  · intro hd
    have hroll : Roll r := roll_run hd
    refine ⟨?_, ?_⟩
    · cases hgauge : r.metrics.sessions with
      | none =>
        refine .inl ⟨rfl, List.eq_nil_of_length_eq_zero ?_⟩
        rw [hsettled.length_subscribed, hroll.unset hgauge]
        rfl
      | some n =>
        refine .inr ?_
        rw [hroll.gauge n hgauge]
    · rw [hsettled.length_subscribed]
      exact hroll.total

end Registry

end Multicast
