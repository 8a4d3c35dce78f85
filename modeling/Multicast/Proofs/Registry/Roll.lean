import Multicast.Proofs.Registry.Sound

/-! The numbers of subscribers that a registry reports. As long as it is not dropped, the gauge holds
the number of members, and the members and those counted as removed are all who were registered. -/

namespace Multicast

/-- How many removals were counted, whatever the reason. -/
def Metrics.removals (m : Metrics) : Nat :=
  (RemovalReason.all.map fun reason => m.value (.removed reason)).foldr (· + ·) 0

/-- The reported numbers agree with the members and with all who were ever registered. -/
structure Roll (r : Registry) : Prop where
  gauge : ∀ n, r.metrics.sessions = some n → n = r.members.length
  unset : r.metrics.sessions = none → r.sessions = []
  total : r.members.length + r.metrics.removals = r.sessions.length

namespace Metrics

theorem Neutral.removals {f : Metrics → Metrics} (hf : Neutral f) (m : Metrics) :
    (f m).removals = m.removals := by
  simp only [Metrics.removals, (hf m).2]

theorem removals_setSessions (m : Metrics) (n : Nat) : (m.setSessions n).removals = m.removals := rfl

/-- Each removal counts under one reason. -/
theorem removals_sessionsRemoved (m : Metrics) (reason : RemovalReason) (n : Nat) :
    (m.sessionsRemoved reason n).removals = m.removals + n := by
  cases reason
  all_goals
    simp [Metrics.removals, RemovalReason.all, sessionsRemoved, value_add]
    omega

end Metrics

variable {T : Terms} {a b : Posted} {s : SessionId} {x : Session}

theorem Roll.put {r : Registry} (h : Roll r) (y : Session) (es : List Event) :
    Roll (r.put s y es) := by
  refine ⟨h.gauge, ?_, ?_⟩
  · intro hnone
    show r.sessions.set s y = []
    rw [h.unset hnone]
    rfl
  · show r.members.length + r.metrics.removals = (r.sessions.set s y).length
    rw [List.length_set]
    exact h.total

/-- One member less is one removal more. -/
theorem Roll.detach (h : Roll a.registry) (hs : Sound T a) (hx : a.registry.session? s = some x)
    (hr : x.stage ≠ .removed) (reason : RemovalReason) :
    Roll (a.registry.detach s reason).1 := by
  -- who is not removed is a member, once, so that one member less remains
  have hmem : s ∈ a.registry.members := (hs.mem_iff s).mpr ⟨x, hx, hr⟩
  have hlen : (a.registry.members.filter (· != s)).length + 1 = a.registry.members.length := by
    rw [← hs.nodup.erase_eq_filter, List.length_erase_of_mem hmem]
    exact Nat.sub_add_cancel (List.length_pos_of_mem hmem)
  obtain ⟨es, _, hdetach⟩ := Registry.detach_eq hx hr reason
  rw [hdetach]
  refine ⟨?_, nofun, ?_⟩
  · intro n hn
    exact (Option.some.inj hn).symm
  · have htotal : a.registry.members.length + a.registry.metrics.removals =
        (a.registry.put s x.remove es).sessions.length := (h.put x.remove es).total
    have hremovals := Metrics.removals_sessionsRemoved
      (a.registry.metrics.setSessions (a.registry.members.filter (· != s)).length) reason 1
    rw [Metrics.removals_setSessions] at hremovals
    show (a.registry.members.filter (· != s)).length + Metrics.removals _ =
      (a.registry.put s x.remove es).sessions.length
    rw [hremovals, ← htotal, ← hlen]
    omega

theorem Roll.turn (h : Roll a.registry) (hs : Sound T a) (t : Turn T a b) : Roll b.registry := by
  cases t with
  | note e he => exact ⟨h.gauge, h.unset, h.total⟩
  | @count r P f hf =>
    have hsessions : (f r.metrics).sessions = r.metrics.sessions := (hf r.metrics).1
    refine ⟨fun n hn => h.gauge n (hsessions ▸ hn), fun hn => h.unset (hsessions ▸ hn), ?_⟩
    show r.members.length + (f r.metrics).removals = r.sessions.length
    rw [hf.removals]
    exact h.total
  | lane hx he hw hr ht => exact h.put _ _
  | detach reason hx hr ht => exact h.detach hs hx hr reason

/-- A shift keeps the roll, unless the registry is dropped. -/
theorem Roll.shift (h : Roll a.registry) (hs : Sound T a) (hd : ¬ T.mayDrop) (hab : Shift T a b) :
    Roll b.registry := by
  cases hab with
  | turn t => exact h.turn hs t
  | beside calls now tokens => exact ⟨h.gauge, h.unset, h.total⟩
  | lane hx he hr ht => exact h.put _ _
  | @enrol r P request =>
    refine ⟨fun n hn => (Option.some.inj hn).symm, nofun, ?_⟩
    show (r.members ++ [r.sessions.length]).length + r.metrics.removals =
      (r.sessions ++ [_]).length
    have htotal : r.members.length + r.metrics.removals = r.sessions.length := h.total
    simp only [List.length_append, List.length_singleton]
    omega
  | @evacuate r P es he f hf =>
    -- all members are counted as removed, since the registry is not dropped
    obtain rfl := hf.resolve_left hd
    refine ⟨fun n hn => (Option.some.inj hn).symm, nofun, ?_⟩
    have hremovals := Metrics.removals_sessionsRemoved (r.metrics.setSessions 0) .shutdown
      r.members.length
    rw [Metrics.removals_setSessions] at hremovals
    have htotal : r.members.length + r.metrics.removals = r.sessions.length := h.total
    show 0 + Metrics.removals _ = (List.mapIdx _ r.sessions).length
    rw [hremovals, List.length_mapIdx]
    omega

theorem Roll.shifts (h : Roll a.registry) (hs : Sound T a) (hd : ¬ T.mayDrop)
    (hab : Shifts T a b) : Roll b.registry := by
  induction hab with
  | refl => exact h
  | tail hshifts hshift ih => exact ih.shift (hs.shifts hshifts) hd hshift

end Multicast
