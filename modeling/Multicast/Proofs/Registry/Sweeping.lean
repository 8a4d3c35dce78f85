import Mathlib.Data.List.Sort
import Multicast.Proofs.Registry.Sweep

/-! Sweeps that overlap, in every run. Whatever happens between their steps, all sweeps together
have removed those who were removed because they were cancelled, each one of them once. -/

namespace Multicast

/-- A sweep in the course of a run: whom it found cancelled when it began, whom it has removed, and
the point to which it has come. -/
structure Sweep where
  due : List SessionId
  removed : List SessionId
  point : Progress SweepPass Nat

namespace Registry

/-- The sweeps of the call or loop with the number `i` after one more action, the latest first. -/
def keepSweeps (r : Registry) (i : Nat) (ws : List Sweep) (action : Action) : List Sweep :=
  let gone := leavers r (r.apply action)
  match r.sweepBegun? i action, r.sweepContinued? i action with
  | some o, _ => ⟨r.members.filter r.isCancelled, gone, o⟩ :: ws
  | none, some o => ws.modifyHead fun w => { w with removed := w.removed ++ gone, point := o }
  | none, none => ws

/-- The sweeps of the call or loop with the number `i` in the course of the actions, the latest
first, after those that there were. -/
def sweeps (i : Nat) (r : Registry) (ws : List Sweep) : List Action → List Sweep
  | [] => ws
  | action :: rest => sweeps i (r.apply action) (r.keepSweeps i ws action) rest

/-- The sweeps of all calls and loops in the course of the actions. -/
def allSweeps (r : Registry) (actions : List Action) : List Sweep :=
  (List.range (r.run actions).calls.length).flatMap fun i => sweeps i r [] actions

/-- What is known of the sweeps of the call or loop with the number `i`. -/
structure Sweeps (i : Nat) (r : Registry) (ws : List Sweep) : Prop where
  covers : ∀ w ∈ ws, Covers r w.due 0 w.removed w.point
  cancelled : ∀ w ∈ ws, ∀ s ∈ w.due, r.isCancelled s = true
  under : r.sweep? i = ws.head?.bind (·.point.underWay?)
  ended : ∀ w ∈ ws.tail, w.point.underWay? = none
  unmade : r.calls.length ≤ i → ws = []

variable {r : Registry} {i : Nat} {p : SweepPass} {actions : List Action} {ws : List Sweep}
  {w : Sweep} {config : Config} {hooks : Hooks}

/-! ### The sweeps of one call -/

/-- The callbacks stay the same. -/
theorem calm_apply (hr : Settled (.any config hooks True) r) (hcalm : r.hooks.Calm)
    (action : Action) : (r.apply action).hooks.Calm :=
  (handsOver_apply hr action).grows.hooks.symm ▸ hcalm

namespace Sweeps

/-- The sweep that is under way is the last one. -/
theorem exists_of_under (h : Sweeps i r ws) (hp : r.sweep? i = some p) :
    ∃ w earlier, ws = w :: earlier ∧ w.point = .running p := by
  have hunder := h.under.symm.trans hp
  cases ws with
  | nil => cases hunder
  | cons w earlier =>
    refine ⟨w, earlier, rfl, ?_⟩
    cases hw : w.point with
    | running p' =>
      simp only [List.head?_cons, Option.bind_some, hw] at hunder
      exact congrArg Progress.running (Option.some.inj hunder)
    | done | crashed => simp [hw, Progress.underWay?] at hunder

/-- While none is under way, all sweeps have come to their end. -/
theorem ended_of_idle (h : Sweeps i r ws) (hidle : r.sweep? i = none) :
    ∀ w ∈ ws, w.point.underWay? = none := by
  have hunder := h.under.symm.trans hidle
  cases ws with
  | nil => exact nofun
  | cons w earlier => exact List.forall_mem_cons.mpr ⟨hunder, h.ended⟩

/-- The sweep that is under way has a callback that comes to a result, and before it subscribers
that are there. -/
theorem under_calm (h : Sweeps i r ws) (hp : r.sweep? i = some p) :
    p.hook.plan.outcome? ≠ none ∧ ∀ s ∈ p.rest, ∃ x, r.session? s = some x := by
  obtain ⟨w, earlier, rfl, hw⟩ := h.exists_of_under hp
  have hcovers := h.covers w List.mem_cons_self
  rw [hw] at hcovers
  obtain ⟨passed, hdue, -⟩ := hcovers.past
  refine ⟨hcovers.calm p rfl, fun s hs => ?_⟩
  have hmem : s ∈ w.due := hdue ▸ List.mem_append_right passed hs
  exact exists_of_isCancelled (h.cancelled w List.mem_cons_self s hmem)

/-- What is known of the sweeps is kept, whatever happens. -/
theorem apply (hr : Settled (.any config hooks True) r)
    (hcalm : r.hooks.Calm) (h : Sweeps i r ws) (action : Action) :
    Sweeps i (r.apply action) (r.keepSweeps i ws action) := by
  have hgrows : r.Grows (r.apply action) := (handsOver_apply hr action).grows
  have hlength := length_calls_le hr action
  have hgone (s : SessionId) (hs : r.isGone s = true) : (r.apply action).isGone s = true :=
    isGone_apply hr hs
  have hcovers : ∀ w ∈ ws, Covers (r.apply action) w.due 0 w.removed w.point :=
    fun w hw => (h.covers w hw).mono hgone
  have hcancelled : ∀ w ∈ ws, ∀ s ∈ w.due, (r.apply action).isCancelled s = true :=
    fun w hw s hs => hgrows.isCancelled (h.cancelled w hw s hs)
  unfold keepSweeps
  dsimp only
  cases sweepTurn_apply hr hcalm (fun p => h.under_calm) action with
  | begins begun idle now who cause covers =>
    -- none was under way, so all the others are over
    rw [begun]
    refine ⟨List.forall_mem_cons.mpr ⟨covers, hcovers⟩,
      List.forall_mem_cons.mpr ⟨fun s hs => ?_, hcancelled⟩, now, h.ended_of_idle idle, ?_⟩
    · exact hgrows.isCancelled (List.mem_filter.mp hs).2
    · intro hle
      rcases who with ⟨-, hstands⟩ | ⟨l, hc⟩
      · exact absurd (List.getElem?_eq_some_iff.mp hstands).1 (Nat.not_lt.mpr hle)
      · have hlt := (List.getElem?_eq_some_iff.mp hc).1
        exact absurd hlt (Nat.not_lt.mpr (hlength.trans hle))
  | @goesOn p o begun moved was now single cause covers =>
    -- the one that goes on is the last one
    rw [begun, moved]
    obtain ⟨w, earlier, rfl, hw⟩ := h.exists_of_under was
    have hlast := h.covers w List.mem_cons_self
    rw [hw] at hlast
    refine ⟨List.forall_mem_cons.mpr ⟨hlast.trans hgone covers, ?_⟩,
      List.forall_mem_cons.mpr ⟨hcancelled w List.mem_cons_self, ?_⟩, now, h.ended, ?_⟩
    · exact fun w' hw' => hcovers w' (List.mem_cons_of_mem w hw')
    · exact fun w' hw' => hcancelled w' (List.mem_cons_of_mem w hw')
    · exact fun hle => absurd (h.unmade (hlength.trans hle)) nofun
  | rests begun moved now aside =>
    rw [begun, moved]
    exact ⟨hcovers, hcancelled, now.trans h.under, h.ended,
      fun hle => h.unmade (hlength.trans hle)⟩

theorem run (hr : Settled (.any config hooks True) r)
    (hcalm : r.hooks.Calm) (h : Sweeps i r ws) (actions : List Action) :
    Sweeps i (r.run actions) (sweeps i r ws actions) := by
  induction actions generalizing r ws with
  | nil => exact h
  | cons action rest ih =>
    exact ih (reaches_apply hr action.keeps_any).settled (calm_apply hr hcalm action)
      (h.apply hr hcalm action)

end Sweeps

theorem sweeps_new (config : Config) (hooks : Hooks) (i : Nat) :
    Sweeps i (new config hooks) [] := by
  refine ⟨nofun, nofun, ?_, nofun, fun _ => rfl⟩
  apply Option.bind_eq_none_iff.mpr
  intro c hc
  rw [(new_idle config hooks).2.2.2] at hc
  rcases mem_loops (List.mem_of_getElem? hc) with ⟨_, rfl⟩ | ⟨_, rfl⟩ <;> rfl

/-! ### A sweep that is called -/

/-- The call that sweeps once has one sweep, and stands where that stands. -/
theorem exists_sweep_apply (hr : Settled (.any config hooks True) r)
    (hcalm : r.hooks.Calm) (h : Sweeps i r [w])
    (hc : r.calls[i]? = some (sweepCall w.point)) (action : Action) :
    ∃ w', r.keepSweeps i [w] action = [w'] ∧ w'.due = w.due ∧
      (r.apply action).calls[i]? = some (sweepCall w'.point) := by
  unfold keepSweeps
  dsimp only
  cases sweepTurn_apply hr hcalm (fun p => h.under_calm) action with
  | begins begun idle now who cause covers =>
    -- the number would be that of a new call, or of a loop
    rcases who with ⟨rfl, -⟩ | ⟨l, hloop⟩
    · exact absurd (List.getElem?_eq_some_iff.mp hc).1 (Nat.lt_irrefl _)
    · have hsame : sweepCall w.point = .sweepLoop l := Option.some.inj (hc.symm.trans hloop)
      cases hw : w.point with
      | running | done | crashed => rw [hw] at hsame; cases hsame
  | @goesOn p o begun moved was now single cause covers =>
    obtain ⟨w', earlier, hws, hw⟩ := h.exists_of_under was
    obtain ⟨rfl, -⟩ := List.cons.inj hws
    rw [begun, moved]
    exact ⟨_, rfl, rfl, single (hc.trans (by rw [hw]; rfl))⟩
  | rests begun moved now aside =>
    rw [begun, moved]
    refine ⟨w, rfl, rfl, ?_⟩
    have htracked : (sweepCall w.point).Tracked := by
      cases w.point with
      | running | done | crashed => trivial
    rcases tracked_apply hr hc htracked action with ⟨hsame, -⟩ | ⟨rfl, hready⟩
    · exact hsame
    · -- a sweep that need not wait would have gone on
      cases hw : w.point with
      | running p =>
        rw [hw] at hc hready
        have hunder : r.sweep? i = some p := sweep?_of_call hc
        have hgo : p.hook.ready r.now = true := hready
        simp [sweepContinued?, hunder, hgo] at moved
      | done | crashed =>
        rw [hw] at hready
        cases hready

theorem exists_sweep_run (hr : Settled (.any config hooks True) r)
    (hcalm : r.hooks.Calm) (h : Sweeps i r [w])
    (hc : r.calls[i]? = some (sweepCall w.point)) (actions : List Action) :
    ∃ w', sweeps i r [w] actions = [w'] ∧ w'.due = w.due ∧
      (r.run actions).calls[i]? = some (sweepCall w'.point) := by
  induction actions generalizing r w with
  | nil => exact ⟨w, rfl, rfl, hc⟩
  | cons action rest ih =>
    obtain ⟨w', hkept, hdue, hc'⟩ := exists_sweep_apply hr hcalm h hc action
    have h' := h.apply hr hcalm action
    rw [hkept] at h'
    obtain ⟨w'', hsweeps, hdue', hc''⟩ :=
      ih (reaches_apply hr action.keeps_any).settled (calm_apply hr hcalm action) h' hc'
    refine ⟨w'', ?_, hdue'.trans hdue, hc''⟩
    rw [sweeps, hkept, hsweeps]

/-- A call that sweeps has one sweep from the beginning. -/
theorem exists_sweep_made (hcalm : r.hooks.Calm) :
    ∃ w, r.keepSweeps r.calls.length [] .sweep = [w] ∧
      w.due = r.members.filter r.isCancelled ∧
      (r.apply .sweep).calls[r.calls.length]? = some (sweepCall w.point) := by
  have hnone : r.calls[r.calls.length]? = none := List.getElem?_eq_none (Nat.le_refl _)
  have hbegun : r.sweepBegun? r.calls.length .sweep = some (r.addCall .crashed).beginSweep.2 := by
    simp only [sweepBegun?, hnone, if_true]
  unfold keepSweeps
  dsimp only
  cases sweepTurn_sweep hcalm with
  | begins begun idle now who cause covers =>
    rw [begun]
    rcases who with ⟨-, hstands⟩ | ⟨l, hc⟩
    · exact ⟨_, rfl, rfl, hstands⟩
    · cases hnone.symm.trans hc
  | goesOn begun => cases hbegun.symm.trans begun
  | rests begun => cases hbegun.symm.trans begun

theorem sweeps_append (i : Nat) (r : Registry) (ws : List Sweep) (before after : List Action) :
    sweeps i r ws (before ++ after) = sweeps i (r.run before) (sweeps i r ws before) after := by
  induction before generalizing r ws with
  | nil => rfl
  | cons action rest ih => exact ih (r.apply action) (r.keepSweeps i ws action)

/-! ### All sweeps together -/

theorem map_due_keepSweeps (i : Nat) (r : Registry) (ws : List Sweep) (action : Action) :
    (r.keepSweeps i ws action).map Sweep.due =
      ((r.sweepBegun? i action).map fun _ => r.members.filter r.isCancelled).toList ++
        ws.map Sweep.due := by
  unfold keepSweeps
  dsimp only
  cases r.sweepBegun? i action with
  | some o => rfl
  | none =>
    cases r.sweepContinued? i action with
    | none => rfl
    | some o =>
      cases ws with
      | nil | cons => rfl

/-- A sweep is written down when it begins, with those who are cancelled then. -/
theorem mem_due_sweeps {ss : List SessionId} : ss ∈ (sweeps i r ws actions).map Sweep.due ↔
    ss ∈ ws.map Sweep.due ∨ ∃ before action after, actions = before ++ action :: after ∧
      ((r.run before).sweepBegun? i action).isSome ∧
      ss = (r.run before).members.filter (r.run before).isCancelled := by
  induction actions generalizing r ws with
  | nil => simp [sweeps]
  | cons action rest ih =>
    rw [sweeps, ih, map_due_keepSweeps, List.mem_append]
    have hhere : ss ∈ ((r.sweepBegun? i action).map fun _ =>
        r.members.filter r.isCancelled).toList ↔
          (r.sweepBegun? i action).isSome ∧ ss = r.members.filter r.isCancelled := by
      cases r.sweepBegun? i action with
      | none => simp
      | some o => simp
    rw [hhere]
    constructor
    · rintro ((⟨hbegun, hss⟩ | hbefore) | ⟨before, action', after, rfl, hbegun, hss⟩)
      · exact .inr ⟨[], action, rest, rfl, hbegun, hss⟩
      · exact .inl hbefore
      · exact .inr ⟨action :: before, action', after, rfl, hbegun, hss⟩
    · rintro (hbefore | ⟨before, action', after, heq, hbegun, hss⟩)
      · exact .inl (.inr hbefore)
      · rcases List.cons_eq_append_iff.mp heq with ⟨rfl, hhead⟩ | ⟨later, rfl, rfl⟩
        · obtain ⟨rfl, -⟩ := List.cons.inj hhead
          exact .inl (.inl ⟨hbegun, hss⟩)
        · exact .inr ⟨later, action', after, rfl, hbegun, hss⟩

/-- Whom an action removes for the sweeps of a call or loop, one of them has removed. -/
theorem perm_keepSweeps (hr : Settled (.any config hooks True) r)
    (hcalm : r.hooks.Calm) (h : Sweeps i r ws) (action : Action) :
    ((r.keepSweeps i ws action).flatMap Sweep.removed).Perm (ws.flatMap Sweep.removed ++
      ((r.departuresAt action).filter fun d => d.cause = .sweep i).map Departure.session) := by
  have hall (hcause : r.cause? action = some (.sweep i)) :
      ((r.departuresAt action).filter fun d => d.cause = .sweep i).map Departure.session =
        leavers r (r.apply action) := by
    have hself : (r.departuresAt action).filter (fun d => decide (d.cause = .sweep i)) =
        r.departuresAt action :=
      List.filter_eq_self.mpr fun d hd => decide_eq_true
        (Option.some.inj (hcause.symm.trans (mem_departuresAt.mp hd).1)).symm
    rw [hself, departuresAt, hcause, List.map_map]
    exact List.map_id _
  unfold keepSweeps
  dsimp only
  cases sweepTurn_apply hr hcalm (fun p => h.under_calm) action with
  | begins begun idle now who cause covers =>
    rw [begun, hall cause]
    exact List.perm_append_comm
  | goesOn begun moved was now single cause covers =>
    obtain ⟨last, earlier, rfl, -⟩ := h.exists_of_under was
    rw [begun, moved, hall cause]
    simp only [List.modifyHead_cons, List.flatMap_cons, List.append_assoc]
    exact List.perm_append_comm.append_left _
  | rests begun moved now aside =>
    have hnone : (r.departuresAt action).filter (fun d => decide (d.cause = .sweep i)) = [] :=
      List.filter_eq_nil_iff.mpr fun d hd => mt of_decide_eq_true (aside d hd)
    rw [begun, moved, hnone, List.map_nil, List.append_nil]

theorem perm_sweeps (hr : Settled (.any config hooks True) r)
    (hcalm : r.hooks.Calm) (h : Sweeps i r ws) (actions : List Action) :
    ((sweeps i r ws actions).flatMap Sweep.removed).Perm (ws.flatMap Sweep.removed ++
      ((r.departures actions).filter fun d => d.cause = .sweep i).map Departure.session) := by
  induction actions generalizing r ws with
  | nil => exact .of_eq (List.append_nil _).symm
  | cons action rest ih =>
    have hlater := ih (reaches_apply hr action.keeps_any).settled (calm_apply hr hcalm action)
      (h.apply hr hcalm action)
    rw [departures, List.filter_append, List.map_append, ← List.append_assoc]
    exact hlater.trans ((perm_keepSweeps hr hcalm h action).append_right _)

/-- Those who were removed because they were cancelled, sorted by the sweeps that removed them. -/
theorem perm_cancelled {out : List Departure} {n : Nat} (hn : (out.map Departure.session).Nodup)
    (hlt : ∀ d ∈ out, ∀ i, d.cause = .sweep i → i < n) :
    ((List.range n).flatMap fun i =>
        (out.filter fun d => d.cause = .sweep i).map Departure.session).Perm
      ((out.filter fun d => d.cause.reason? = some .cancelled).map Departure.session) := by
  have hsub (f : Departure → Bool) : ((out.filter f).map Departure.session).Nodup :=
    hn.sublist ((List.filter_sublist).map _)
  have hnodup : ((List.range n).flatMap fun i =>
      (out.filter fun d => d.cause = .sweep i).map Departure.session).Nodup := by
    refine List.nodup_flatMap.mpr ⟨fun i _ => hsub _, List.nodup_range.imp ?_⟩
    -- nobody departs twice, so nobody departs by two calls
    intro i j hij s hi hj
    obtain ⟨d, hd, rfl⟩ := List.mem_map.mp hi
    obtain ⟨d', hd', hsame⟩ := List.mem_map.mp hj
    obtain ⟨hmem, hcause⟩ := List.mem_filter.mp hd
    obtain ⟨hmem', hcause'⟩ := List.mem_filter.mp hd'
    have heq : d' = d := List.inj_on_of_nodup_map hn hmem' hmem hsame
    rw [heq] at hcause'
    have hcauses : Cause.sweep i = .sweep j :=
      (of_decide_eq_true hcause).symm.trans (of_decide_eq_true hcause')
    exact hij (Cause.sweep.inj hcauses)
  refine (List.perm_ext_iff_of_nodup hnodup (hsub _)).mpr fun s => ?_
  simp only [List.mem_flatMap, List.mem_range, List.mem_map, List.mem_filter, decide_eq_true_iff]
  constructor
  · rintro ⟨i, -, d, ⟨hd, hcause⟩, rfl⟩
    exact ⟨d, ⟨hd, by rw [hcause]; rfl⟩, rfl⟩
  · rintro ⟨d, ⟨hd, hreason⟩, rfl⟩
    cases hcause : d.cause with
    | sweep i => exact ⟨i, hlt d hd i hcause, d, ⟨hd, hcause⟩, rfl⟩
    | _ => rw [hcause] at hreason; cases hreason

/-- Those who were there before stand in their old order before those who have come since. -/
theorem members_run (config : Config) (hooks : Hooks) (before after : List Action) :
    let r := (new config hooks).run before
    let v := (new config hooks).run (before ++ after)
    v.members = r.members.filter (· ∈ v.members) ++ v.members.filter (r.sessions.length ≤ ·) := by
  intro r v
  have hr : Settled (.any config hooks True) r := settled_any_run config hooks before
  have hv : Settled (.any config hooks True) v := settled_any_run config hooks (before ++ after)
  have hold : ∀ s ∈ r.members, s < r.sessions.length := by
    intro s hs
    obtain ⟨x, hx, -⟩ := (hr.sound.mem_iff s).mp hs
    exact (List.getElem?_eq_some_iff.mp hx).1
  have hincreasing : v.members.Pairwise (· < ·) :=
    members_increasing config hooks (before ++ after)
  have hstay : ∀ s ∈ v.members, s < r.sessions.length → s ∈ r.members := by
    intro s hs hlt
    have hget : r.session? s = some r.sessions[s] := List.getElem?_eq_getElem hlt
    refine (hr.sound.mem_iff s).mpr ⟨_, hget, fun hstage => ?_⟩
    -- nobody comes back who was removed
    have hgone : v.isGone s = true := by
      have hlater := isGone_run hr ((isGone_of_session? hget).mpr hstage) after
      rwa [← run_append] at hlater
    obtain ⟨x, hx, hpresent⟩ := (hv.sound.mem_iff s).mp hs
    exact hpresent ((isGone_of_session? hx).mp hgone)
  refine List.Subset.antisymm_of_pairwise hincreasing ?_ ?_ ?_
  · refine List.pairwise_append.mpr
      ⟨(members_increasing config hooks before).filter _, hincreasing.filter _, ?_⟩
    intro s hs t ht
    have hle : r.sessions.length ≤ t := of_decide_eq_true (List.mem_filter.mp ht).2
    exact (hold s (List.mem_filter.mp hs).1).trans_le hle
  · intro s hs
    by_cases hlt : s < r.sessions.length
    · exact List.mem_append_left _ (List.mem_filter.mpr ⟨hstay s hs hlt, decide_eq_true hs⟩)
    · exact List.mem_append_right _
        (List.mem_filter.mpr ⟨hs, decide_eq_true (Nat.le_of_not_lt hlt)⟩)
  · intro s hs
    rcases List.mem_append.mp hs with hs | hs
    · exact of_decide_eq_true (List.mem_filter.mp hs).2
    · exact (List.mem_filter.mp hs).1

theorem mem_allSweeps : w ∈ r.allSweeps actions ↔
    ∃ i < (r.run actions).calls.length, w ∈ sweeps i r [] actions := by
  simp only [allSweeps, List.mem_flatMap, List.mem_range]

/-- The sweeps of a run share out those who were removed because they were cancelled. -/
theorem perm_allSweeps (config : Config) {hooks : Hooks} (hcalm : hooks.Calm)
    (actions : List Action) :
    (((new config hooks).allSweeps actions).flatMap Sweep.removed).Perm
      ((((new config hooks).departures actions).filter
        fun d => d.cause.reason? = some .cancelled).map Departure.session) := by
  have hnew : Settled (.any config hooks True) (new config hooks) := settled_new rfl rfl
  have hcalm' : (new config hooks).hooks.Calm := (new_idle config hooks).1.symm ▸ hcalm
  have heach : ((List.range ((new config hooks).run actions).calls.length).flatMap fun i =>
        (sweeps i (new config hooks) [] actions).flatMap Sweep.removed).Perm
      ((List.range ((new config hooks).run actions).calls.length).flatMap fun i =>
        (((new config hooks).departures actions).filter
          fun d => d.cause = .sweep i).map Departure.session) :=
    List.Perm.flatMap_left _ fun i _ => perm_sweeps hnew hcalm' (sweeps_new config hooks i) actions
  rw [allSweeps, List.flatMap_assoc]
  exact heach.trans (perm_cancelled (passage_new config hooks actions).nodup
    fun d hd i hcause => number_lt_of_mem_departures hnew hd (.inr hcause))

/-- Sweeps, however many overlap, and whatever happens between their steps, if the callbacks after
removals do not crash. The sweeps of a call or loop are those that have begun, each with those who
were registered and cancelled then; the one under way is the last one. A sweep removes none but
those; when it is over, all of them are removed, and its result is the number of those whom it has
removed itself. A call that sweeps has one sweep, and stands where that stands. All sweeps together
have removed those who departed because they were cancelled, each of them once; while none is under
way, their results add up to what is counted of such removals. Those who remain registered stand in
their old order, before those who have come since. -/
theorem sweeps_cover_and_count (config : Config) (hooks : Hooks)
    (hcalm : hooks.Calm) (actions : List Action) :
    let r := (new config hooks).run actions
    let out := (new config hooks).departures actions
    let ws := (new config hooks).allSweeps actions
    (∀ i, (∀ ss, ss ∈ (sweeps i (new config hooks) [] actions).map Sweep.due ↔
          ∃ before action after, actions = before ++ action :: after ∧
            (((new config hooks).run before).sweepBegun? i action).isSome ∧
            ss = ((new config hooks).run before).members.filter
              ((new config hooks).run before).isCancelled) ∧
        r.sweep? i = (sweeps i (new config hooks) [] actions).head?.bind (·.point.underWay?)) ∧
      (∀ w ∈ ws, w.removed.Sublist w.due ∧ (∀ s ∈ w.due, r.isCancelled s = true) ∧
        ∀ n, w.point = .done n → (∀ s ∈ w.due, r.isGone s = true) ∧ n = w.removed.length) ∧
      (∀ before after, actions = before ++ .sweep :: after →
        let u := (new config hooks).run before
        ∃ w, sweeps u.calls.length (new config hooks) [] actions = [w] ∧
          w.due = u.members.filter u.isCancelled ∧
          r.calls[u.calls.length]? = some (sweepCall w.point)) ∧
      (ws.flatMap Sweep.removed).Nodup ∧
      (ws.flatMap Sweep.removed).Perm
        ((out.filter fun d => d.cause.reason? = some .cancelled).map Departure.session) ∧
      ((∀ i, r.sweep? i = none) →
        (ws.filterMap (·.point.result?)).sum = r.metrics.value (.removed .cancelled)) ∧
      ∀ before after, actions = before ++ after →
        let u := (new config hooks).run before
        r.members = u.members.filter (· ∈ r.members) ++
          r.members.filter (u.sessions.length ≤ ·) := by
  intro r out ws
  have hnew : Settled (.any config hooks True) (new config hooks) := settled_new rfl rfl
  have hcalm' : (new config hooks).hooks.Calm := (new_idle config hooks).1.symm ▸ hcalm
  have hsweeps (i : Nat) : Sweeps i r (sweeps i (new config hooks) [] actions) :=
    (sweeps_new config hooks i).run hnew hcalm' actions
  have hpassage : Passage out (new config hooks) r := passage_new config hooks actions
  have hperm := perm_allSweeps config hcalm actions
  refine ⟨?_, ?_, ?_, ?_, hperm, ?_, ?_⟩
  · intro i
    refine ⟨fun ss => ?_, (hsweeps i).under⟩
    rw [mem_due_sweeps]
    exact or_iff_right List.not_mem_nil
  · intro w hw
    obtain ⟨i, -, hw⟩ := mem_allSweeps.mp hw
    have hcovers := (hsweeps i).covers w hw
    refine ⟨hcovers.removed_sublist, (hsweeps i).cancelled w hw, fun n hn => ?_⟩
    obtain ⟨hdone, hall⟩ := hcovers.of_ended (by rw [hn]; rfl)
    exact ⟨hall, Progress.done.inj (hn.symm.trans hdone)⟩
  · rintro before after rfl u
    have hu : Settled (.any config hooks True) u := settled_any_run config hooks before
    -- nothing bears the number of the call before it is made
    have hnone : sweeps u.calls.length (new config hooks) [] before = [] :=
      ((sweeps_new config hooks _).run hnew hcalm' before).unmade (Nat.le_refl _)
    have hcalmu : u.hooks.Calm := (handsOver_run hnew before).grows.hooks.symm ▸ hcalm'
    obtain ⟨w, hkept, hdue, hstands⟩ := exists_sweep_made hcalmu
    have hmade : Sweeps u.calls.length (u.apply .sweep) [w] := by
      have hbefore : Sweeps u.calls.length u [] :=
        hnone ▸ (sweeps_new config hooks u.calls.length).run hnew hcalm' before
      exact hkept ▸ hbefore.apply hu hcalmu .sweep
    obtain ⟨w', hw', hdue', hstands'⟩ :=
      exists_sweep_run (reaches_apply hu Action.sweep.keeps_any).settled
        (calm_apply hu hcalmu .sweep) hmade hstands after
    refine ⟨w', ?_, hdue'.trans hdue, ?_⟩
    · rw [sweeps_append, hnone]
      exact (congrArg (sweeps _ _ · after) hkept).trans hw'
    · show ((new config hooks).run (before ++ .sweep :: after)).calls[u.calls.length]? = _
      rw [run_append]
      exact hstands'
  · exact hperm.nodup_iff.mpr (hpassage.nodup.sublist (List.filter_sublist.map _))
  · intro hidle
    -- each sweep is over and has counted its own; together they have removed all who were counted
    have hresult : ∀ w ∈ ws, w.point.result? = some w.removed.length := by
      intro w hw
      obtain ⟨i, -, hw⟩ := mem_allSweeps.mp hw
      have hover := (hsweeps i).ended_of_idle (hidle i) w hw
      rw [(((hsweeps i).covers w hw).of_ended hover).1]
      rfl
    have hcounted : r.metrics.value (.removed .cancelled) =
        out.countP fun d => d.cause.reason? = some .cancelled := by
      rw [hpassage.counted, (new_blank config hooks).2.2]
      exact Nat.zero_add _
    calc (ws.filterMap (·.point.result?)).sum
        = (ws.map fun w => w.removed.length).sum := by
          rw [List.filterMap_congr hresult, List.filterMap_eq_map']
      _ = (ws.flatMap Sweep.removed).length := List.length_flatMap.symm
      _ = out.countP fun d => d.cause.reason? = some .cancelled := by
          rw [hperm.length_eq, List.length_map, List.countP_eq_length_filter]
      _ = r.metrics.value (.removed .cancelled) := hcounted.symm
  · rintro before after rfl u
    exact members_run config hooks before after

/-- Two subscribers are cancelled. The sweep that is called finds both and waits at the callback of
the first one; meanwhile the loop sweeps out the second one. Each of the two sweeps counts one. -/
theorem sweeps_cover_and_count_of_overlap :
    let hooks : Hooks := { after := fun _ => .delay 5 (.fail (.failed "late")) }
    let actions : List Action := [.subscribe { token := some "a" }, .run (.call 1),
      .subscribe { token := some "b" }, .run (.call 2), .subscribe {}, .run (.call 3), .cancel "a",
      .cancel "b", .sweep, .run (.call 4), .run (.call 0), .run (.call 0), .elapse 5,
      .run (.call 4), .run (.call 0)]
    let r := (new {} hooks).run actions
    let ws := (new {} hooks).allSweeps actions
    hooks.Calm ∧ (∀ i, r.sweep? i = none) ∧ r.members = [2] ∧
      ws.map (fun w => (w.due, w.removed)) = [([1], [1]), ([0, 1], [0])] ∧
      (ws.filterMap (·.point.result?)).sum = r.metrics.value (.removed .cancelled) := by
  intro hooks actions r ws
  have hcalm : hooks.Calm := fun _ => nofun
  have hcalls : r.calls.length = 5 := by decide
  have hsome : ∀ i < 5, r.sweep? i = none := by decide
  have hmembers : r.members = [2] := by decide
  have hws : ws.map (fun w => (w.due, w.removed)) = [([1], [1]), ([0, 1], [0])] := by decide
  have hidle : ∀ i, r.sweep? i = none := by
    intro i
    by_cases hi : i < 5
    · exact hsome i hi
    · rw [sweep?, List.getElem?_eq_none (hcalls ▸ Nat.le_of_not_lt hi), Option.bind_none]
  refine ⟨hcalm, hidle, hmembers, hws, ?_⟩
  obtain ⟨-, -, -, -, -, hsum, -⟩ := sweeps_cover_and_count {} hooks hcalm actions
  exact hsum hidle

end Registry

end Multicast
