import Multicast.Proofs.Registry.Farewells
import Multicast.Proofs.Registry.StoppedForGood

/-! What a stop leaves behind. The call that stops a registry waits for its farewells and forgets
none of them; when it returns before its time is up, all whom it has removed are at rest and their
callbacks were called. Those whom others had removed before are at rest if they were so then. -/

namespace Multicast

/-- Whether a call stands where one may that waits for some others until a moment: it has forgotten
none that is not over, and it has returned only when all were over or the moment had come. -/
def Call.Awaits (r : Registry) (deadline : Nat) (js : List Nat) : Call → Prop
  | .stopping p => p.deadline = deadline ∧ ∀ j ∈ js, j ∈ p.waiting ∨ r.isOver j = true
  | .returned _ => deadline ≤ r.now ∨ ∀ j ∈ js, r.isOver j = true
  | _ => False

/-- What a call has returned. Calls cannot be compared, what they return can. -/
def Call.answer? : Call → Option (Except RegistryError Answer)
  | .returned answer => some answer
  | _ => none

theorem Call.eq_returned {c : Call} {answer : Except RegistryError Answer}
    (h : c.answer? = some answer) : c = .returned answer := by
  cases c with
  | returned a =>
    obtain rfl := Option.some.inj h
    rfl
  | _ => cases h

namespace Registry

variable {T : Terms} {r u : Registry} {s : SessionId} {x : Session} {i j k deadline : Nat}
  {js : List Nat} {c : Call} {config : Config} {hooks : Hooks}

/-! ### The call that stops -/

theorem isOver_iff (hc : r.calls[i]? = some c) : r.isOver i = true ↔ c.isOver = true := by
  unfold isOver
  rw [hc]
  cases c with
  | returned | crashed => exact Iff.rfl
  | _ => exact iff_of_false nofun nofun

theorem isOver_apply (hr : Settled T r) (hj : j < r.calls.length) (h : r.isOver j = true)
    (action : Action) : (r.apply action).isOver j = true := by
  have hc : r.calls[j]? = some r.calls[j] := List.getElem?_eq_getElem hj
  have hover := (isOver_iff hc).mp h
  exact (isOver_iff (over_apply hr hc hover action)).mpr hover

theorem isOver_setCall_of_ne (h : j ≠ i) (c : Call) : (u.setCall i c).isOver j = u.isOver j := by
  rw [isOver, setCall, List.getElem?_set_ne h.symm, isOver]

/-- The call that stops goes on without forgetting a call that is not over. -/
theorem awaits_stopStep {p : StopPoint} (hi : i < r.calls.length)
    (h : (Call.stopping p).Awaits r deadline js) (hjs : i ∉ js) :
    ∃ c, (r.stopStep i p).calls[i]? = some c ∧ c.Awaits (r.stopStep i p) deadline js := by
  have hcalls : (noteCrashes (p.waiting.filter r.isOver) r).calls = r.calls :=
    (effect_noteCrashes (q := none) _).calls
  unfold stopStep
  dsimp only
  -- crashes are noted first, which changes no call
  generalize noteCrashes (p.waiting.filter r.isOver) r = w at hcalls
  have hover (j : Nat) : w.isOver j = r.isOver j := by
    rw [isOver, hcalls, isOver]
  have hset {u : Registry} (hu : u.calls = w.calls) (c : Call) :
      (u.setCall i c).calls[i]? = some c ∧ ∀ j ∈ js, r.isOver j = true →
        (u.setCall i c).isOver j = true := by
    refine ⟨?_, fun j hj hends => ?_⟩
    · rw [setCall, hu, hcalls]
      exact List.getElem?_set_self hi
    · have hne : j ≠ i := fun hji => hjs (hji ▸ hj)
      rw [isOver_setCall_of_ne hne, isOver, hu, hcalls]
      exact hends
  have hkept (j : Nat) (hj : j ∈ js) : j ∈ p.waiting.filter (fun j => !w.isOver j) ∨
      r.isOver j = true := by
    cases hends : r.isOver j with
    | true => exact .inr rfl
    | false =>
      have hwaits := (h.2 j hj).resolve_right (Bool.eq_false_iff.mp hends)
      refine .inl (List.mem_filter.mpr ⟨hwaits, ?_⟩)
      rw [hover, hends]
      rfl
  split
  · rename_i hempty
    obtain ⟨hget, hends⟩ := hset (u := w.note (.stopped p.count)) rfl (.returned (.ok .nothing))
    refine ⟨_, hget, .inr fun j hj => hends j hj ((hkept j hj).resolve_left ?_)⟩
    rw [List.isEmpty_iff.mp hempty]
    exact List.not_mem_nil
  · split
    · rename_i hlate
      obtain ⟨hget, -⟩ := hset (u := w.note (.stopTimedOut p.count
        (p.waiting.filter fun j => !w.isOver j).length w.config.removalTimeout.seconds)) rfl
        (.returned (.ok .nothing))
      exact ⟨_, hget, .inl (h.1.symm.le.trans hlate)⟩
    · obtain ⟨hget, hends⟩ := hset (u := w) rfl
        (.stopping { p with waiting := p.waiting.filter fun j => !w.isOver j })
      exact ⟨_, hget, h.1, fun j hj => (hkept j hj).imp_right (hends j hj)⟩

theorem awaits_apply (hr : Settled (.any config hooks True) r) (hc : r.calls[i]? = some c)
    (h : c.Awaits r deadline js) (hi : i ∉ js) (hjs : ∀ j ∈ js, j < r.calls.length)
    (action : Action) :
    ∃ c', (r.apply action).calls[i]? = some c' ∧ c'.Awaits (r.apply action) deadline js := by
  have hnow := (reaches_apply hr action.keeps_any).shifts.now_le
  cases c with
  | stopping p =>
    by_cases ha : action = .run (.call i)
    · subst ha
      cases hready : r.callReady i (.stopping p) with
      | false =>
        rw [apply_call_of_waiting hc hready]
        exact ⟨_, hc, h⟩
      | true =>
        rw [apply_call hc hready]
        exact awaits_stopStep (List.getElem?_eq_some_iff.mp hc).1 h hi
    · refine ⟨_, call_stays hr hc id ha, h.1, fun j hj => ?_⟩
      exact (h.2 j hj).imp_right fun hover => isOver_apply hr (hjs j hj) hover action
  | returned answer =>
    refine ⟨_, over_apply hr hc rfl action, h.imp (fun hlate => hlate.trans hnow) ?_⟩
    exact fun hall j hj => isOver_apply hr (hjs j hj) (hall j hj) action
  | _ => exact h.elim

theorem awaits_run (hr : Settled (.any config hooks True) r) (hc : r.calls[i]? = some c)
    (h : c.Awaits r deadline js) (hi : i ∉ js) (hjs : ∀ j ∈ js, j < r.calls.length)
    (actions : List Action) :
    ∃ c', (r.run actions).calls[i]? = some c' ∧ c'.Awaits (r.run actions) deadline js := by
  induction actions generalizing r c with
  | nil => exact ⟨c, hc, h⟩
  | cons action rest ih =>
    obtain ⟨c', hc', h'⟩ := awaits_apply hr hc h hi hjs action
    refine ih (reaches_apply hr action.keeps_any).settled hc' h' fun j hj => ?_
    exact (hjs j hj).trans_le (length_calls_le hr action)

/-! ### What a stop begins with -/

/-- The farewell of the member with number `k` is the call with number `k` after the stop. -/
theorem calls_stop_farewell (hr : Settled T r) (hopen : r.stopped = false)
    (hk : r.members[k]? = some s) :
    r.stop.calls[r.calls.length + 1 + k]? = some (.farewell s .fresh) := by
  obtain ⟨metrics, history, hstop⟩ := exists_stop_eq hr hopen
  rw [hstop, List.getElem?_append_right (by omega)]
  have hplace : r.calls.length + 1 + k - r.calls.length = k + 1 := by omega
  rw [hplace, List.getElem?_cons_succ, List.getElem?_map, hk]
  rfl

/-- To a member only its farewell attends, when the registry has stopped. -/
theorem attendsTo_stop (hr : Settled T r) (hopen : r.stopped = false) (hk : r.members[k]? = some s)
    (hnobody : ∀ j, ¬ r.AttendsTo j s) (h : r.stop.AttendsTo j s) : j = r.calls.length + 1 + k := by
  obtain ⟨metrics, history, hstop⟩ := exists_stop_eq hr hopen
  obtain ⟨c, hc, hs⟩ := h
  rw [hstop] at hc
  rcases Nat.lt_or_ge j r.calls.length with hj | hj
  · rw [List.getElem?_append_left hj] at hc
    exact absurd ⟨c, hc, hs⟩ (hnobody j)
  · obtain ⟨m, rfl⟩ := Nat.exists_eq_add_of_le hj
    rw [List.getElem?_append_right hj, Nat.add_sub_cancel_left] at hc
    cases m with
    | zero =>
      obtain rfl := Option.some.inj hc
      cases hs
    | succ m =>
      rw [List.getElem?_cons_succ, List.getElem?_map, Option.map_eq_some_iff] at hc
      obtain ⟨t, ht, rfl⟩ := hc
      obtain rfl : t = s := Option.some.inj hs
      -- nobody is registered twice
      have hm : m < r.members.length := (List.getElem?_eq_some_iff.mp ht).1
      have hsame : m = k := (List.getElem?_inj hm hr.sound.nodup).mp (ht.trans hk.symm)
      omega

/-! ### Members -/

/-- Whoever has a callback still to come is attended to. -/
theorem owed_of_unattended (h : ∀ i, ¬ r.AttendsTo i s) : r.owed s = 0 := by
  apply List.sum_eq_zero_iff_forall_eq_nat.mpr
  intro n hn
  obtain ⟨c, hc, rfl⟩ := List.mem_map.mp hn
  obtain ⟨i, hi⟩ := List.mem_iff_getElem?.mp hc
  cases c with
  | unsubscribing t f | farewell t f =>
    refine if_neg fun hts => h i ⟨_, hi, ?_⟩
    exact congrArg some hts
  | _ => rfl

/-- The callback of a member was called once, when nobody attends to it after the stop. -/
theorem hookCalls_of_member {before after : List Action}
    (hopen : ((new config hooks).run before).stopped = false)
    (hs : s ∈ ((new config hooks).run before).members)
    (hnobody : ∀ i, ¬ ((new config hooks).run (before ++ .stop :: after)).AttendsTo i s) :
    ((new config hooks).run (before ++ .stop :: after)).hookCalls.count s = 1 := by
  have hr := settled_any_run config hooks before
  obtain ⟨hbefore, hafter⟩ := removes_stop hr hopen hs
  have hdeparts : (⟨s, .stop⟩ : Departure) ∈
      (new config hooks).departures (before ++ .stop :: after) := by
    rw [departures_append, departures]
    refine List.mem_append_right _ (List.mem_append_left _ (mem_departuresAt.mpr ⟨rfl, ?_⟩))
    obtain ⟨x, hx, -⟩ := isGone_iff.mp hafter
    refine List.mem_filter.mpr ⟨List.mem_range.mpr (List.getElem?_eq_some_iff.mp hx).1, ?_⟩
    show (((new config hooks).run before).stop.isGone s &&
      !((new config hooks).run before).isGone s) = true
    rw [hafter, hbefore]
    rfl
  -- it departs by the stop and nobody departs twice, so that one callback was called or is owed
  have hleast : 0 < ((new config hooks).departures (before ++ .stop :: after)).countP
      fun d => d.session = s ∧ d.cause ≠ .drop :=
    List.countP_pos_iff.mpr ⟨_, hdeparts, decide_eq_true ⟨rfl, Cause.noConfusion⟩⟩
  have hmost := (countP_session_le _ s).trans (List.nodup_iff_count_le_one.mp
    (passage_new config hooks (before ++ .stop :: after)).nodup s)
  have howes := owes_of_run config hooks (before ++ .stop :: after) s
  rw [owed_of_unattended hnobody] at howes
  omega

/-- A stop leaves the deliveries to a subscriber where they stand. -/
theorem busy_of_stop (hr : Settled T r) (hopen : r.stopped = false) (hx : r.session? s = some x)
    (hs : s ∈ r.members) {p : Party} {d : Delivery} (hd : r.stop.posts s p = .busy d) :
    r.posts s p = .busy d := by
  cases p with
  | worker =>
    rw [posts_worker (session?_stop hr hopen hs hx)] at hd
    rw [posts_worker hx]
    exact hd
  | call j =>
    obtain ⟨metrics, history, hstop⟩ := exists_stop_eq hr hopen
    cases hc : r.stop.calls[j]? with
    | none =>
      rw [posts_of_no_call (List.getElem?_eq_none_iff.mp hc)] at hd
      cases hd
    | some c =>
      have hget := hc
      rw [hstop] at hget
      rcases Nat.lt_or_ge j r.calls.length with hj | hj
      · rw [List.getElem?_append_left hj] at hget
        rw [congrFun (posts_call hc) s] at hd
        rw [congrFun (posts_call hget) s]
        exact hd
      · -- the calls that are made deliver nothing
        have hnone : c.directs = [] := by
          rw [List.getElem?_append_right hj] at hget
          rcases List.mem_cons.mp (List.mem_of_getElem? hget) with rfl | hmem
          · rfl
          · obtain ⟨t, -, rfl⟩ := List.mem_map.mp hmem
            rfl
        rw [posts_of_no_directs hc hnone] at hd
        cases hd

/-- When the call that stops returns in time, each farewell is over, and no worker is up of whom it
took leave. -/
theorem retired_of_stop (hr : Settled (.any config hooks True) r) (hopen : r.stopped = false)
    (hx : r.session? s = some x) (hk : r.members[k]? = some s)
    (hnobody : ∀ j, ¬ r.AttendsTo j s) (hj : x.queue.unjoined = x.queue.started)
    {actions : List Action} {answer : Except RegistryError Answer}
    (hreturned : (r.stop.run actions).calls[r.calls.length]? = some (.returned answer))
    (htime : (r.stop.run actions).now < r.now + r.config.removalTimeout.millis) :
    ∃ c y, (r.stop.run actions).calls[r.calls.length + 1 + k]? = some c ∧ c.isOver = true ∧
      (r.stop.run actions).session? s = some y ∧ y.Retired := by
  have hs : s ∈ r.members := List.mem_of_getElem? hk
  have hstop : Settled (.any config hooks True) r.stop :=
    (reaches_apply hr Action.stop.keeps_any).settled
  obtain ⟨metrics, history, heq⟩ := exists_stop_eq hr hopen
  -- the farewell
  have hfarewell := calls_stop_farewell hr hopen hk
  have hleave : (Call.farewell s .fresh).TakesLeave r.stop s :=
    ⟨rfl, x.remove, session?_stop hr hopen hs hx, rfl, fits_remove (hr.sound.lawful s x hx) hj⟩
  obtain ⟨c, hc, hleft⟩ := takesLeave_run hstop hfarewell hleave (removes_stop hr hopen hs).2
    (fun j => attendsTo_stop hr hopen hk hnobody) actions
  -- the call that waits for it
  let js := (List.range r.members.length).map (r.calls.length + 1 + ·)
  have hcall : r.stop.calls[r.calls.length]? = some (.stopping {
      count := r.members.length
      deadline := r.now + r.config.removalTimeout.millis
      waiting := js }) := by
    rw [heq, List.getElem?_append_right (Nat.le_refl _), Nat.sub_self]
    rfl
  have hlater : r.calls.length ∉ js := by
    intro hmem
    obtain ⟨m, -, hm⟩ := List.mem_map.mp hmem
    omega
  have hthere : ∀ j ∈ js, j < r.stop.calls.length := by
    intro j hmem
    obtain ⟨m, hm, rfl⟩ := List.mem_map.mp hmem
    have hlt := List.mem_range.mp hm
    rw [heq, List.length_append, List.length_cons, List.length_map]
    omega
  obtain ⟨_, hget, hawaits⟩ := awaits_run hstop hcall ⟨rfl, fun j => .inl⟩ hlater hthere actions
  obtain rfl := Option.some.inj (hreturned.symm.trans hget)
  have hall := hawaits.resolve_left (Nat.not_le.mpr htime)
  have hmem : r.calls.length + 1 + k ∈ js :=
    List.mem_map_of_mem (List.mem_range.mpr (List.getElem?_eq_some_iff.mp hk).1)
  have hover : c.isOver = true := (isOver_iff hc).mp (hall _ hmem)
  cases c with
  | returned | crashed =>
    obtain ⟨y, hy, hretired⟩ := hleft
    exact ⟨_, y, hc, hover, hy, hretired⟩
  | _ => cases hover

/-- A member is at rest when the call returns in time that stopped the registry. -/
theorem atRest_of_stop (hr : Settled (.any config hooks True) r) (hopen : r.stopped = false)
    (hx : r.session? s = some x) (hk : r.members[k]? = some s)
    (hnobody : ∀ j, ¬ r.AttendsTo j s) (hj : x.queue.unjoined = x.queue.started)
    (hwrites : ∀ p d, r.posts s p = .busy d → d.isWriting = true)
    {actions : List Action} {answer : Except RegistryError Answer}
    (hreturned : (r.stop.run actions).calls[r.calls.length]? = some (.returned answer))
    (htime : (r.stop.run actions).now < r.now + r.config.removalTimeout.millis) :
    (r.stop.run actions).AtRest s := by
  have hs : s ∈ r.members := List.mem_of_getElem? hk
  have hstop : Settled (.any config hooks True) r.stop :=
    (reaches_apply hr Action.stop.keeps_any).settled
  have hgone := (removes_stop hr hopen hs).2
  obtain ⟨c, y, hc, hover, hy, hretired⟩ :=
    retired_of_stop hr hopen hx hk hnobody hj hreturned htime
  refine ⟨?_, ?_, ?_⟩
  · intro z hz
    obtain rfl := Option.some.inj (hy.symm.trans hz)
    exact hretired.down
  · intro j hattends
    -- only the farewell may attend to it, and that is over
    obtain rfl := attendsTo_stop hr hopen hk hnobody (attendsTo_run hstop hgone hattends)
    obtain ⟨d, hd, hds⟩ := hattends
    obtain rfl := Option.some.inj (hc.symm.trans hd)
    cases c with
    | returned | crashed => cases hds
    | _ => cases hover
  · have hreaches := reaches_any_run hstop actions
    have hwritten : (Posted.lane ⟨r.stop, r.stop.posts⟩ s x.remove).OnlyWrites :=
      fun p d hd => hwrites p d (busy_of_stop hr hopen hx hs hd)
    obtain ⟨_, -, hlater⟩ := hreaches.shifts.onlyWrites hstop.sound (session?_stop hr hopen hs hx)
      rfl hwritten
    exact hlater

/-- Nobody comes in any more when the registry has stopped. -/
theorem session?_run_of_stop (hr : Settled (.any config hooks True) r) (hopen : r.stopped = false)
    (hs : r.session? s = none) (actions : List Action) :
    (r.stop.run actions).session? s = none := by
  have hstop : Settled (.any config hooks True) r.stop :=
    (reaches_apply hr Action.stop.keeps_any).settled
  obtain ⟨metrics, history, heq⟩ := exists_stop_eq hr hopen
  have hlength : (r.stop.run actions).sessions.length = r.sessions.length := by
    rw [((passage_run hstop actions).closed (stopped_stop hr)).2, heq]
    exact List.length_mapIdx
  refine List.getElem?_eq_none_iff.mpr ?_
  rw [hlength]
  exact List.getElem?_eq_none_iff.mp hs

/-- Who is no member and at rest when the registry is called to stop stays at rest. -/
theorem atRest_of_not_mem {before : List Action}
    (hopen : ((new config hooks).run before).stopped = false)
    (hs : s ∉ ((new config hooks).run before).members)
    (h : ((new config hooks).run before).AtRest s) (after : List Action) :
    ((new config hooks).run (before ++ .stop :: after)).AtRest s := by
  have hr := settled_any_run config hooks before
  cases hx : ((new config hooks).run before).session? s with
  | none =>
    apply atRest_of_stranger
    rw [run_append]
    exact session?_run_of_stop hr hopen hx after
  | some x =>
    have hgone : ((new config hooks).run before).isGone s = true := by
      rw [isGone_of_session? hx]
      by_contra hstage
      exact hs ((hr.sound.mem_iff s).mpr ⟨x, hx, hstage⟩)
    rw [run_append]
    exact atRest_run hr hgone h (.stop :: after)

/-! ### Every run -/

/-- A stop is complete as far as it goes. In every run, when the call that stopped a registry
returns before the time for removals is up, everybody whom it has removed is at rest, and the
callback of each was called once: no worker of theirs is up, and no call or delivery runs a callback
of theirs. The same holds of all others, but for those who were removed before and not at rest when
the registry was called to stop. And so it stays, whatever follows. -/
theorem at_rest_after_stop (config : Config) (hooks : Hooks) (before after : List Action)
    (hopen : ((new config hooks).run before).stopped = false)
    (hreturned : ((((new config hooks).run before).apply .stop).run after).calls[
      ((new config hooks).run before).calls.length]? = some (.returned (.ok .nothing)))
    (htime : ((((new config hooks).run before).apply .stop).run after).now <
      ((new config hooks).run before).now +
        ((new config hooks).run before).config.removalTimeout.millis) :
    let r := (new config hooks).run before
    ∀ more s, let w := ((r.apply .stop).run after).run more
      (s ∈ r.members → w.hookCalls.count s = 1) ∧
        (s ∈ r.members ∨ r.AtRest s → w.AtRest s) := by
  intro r more s w
  have hr : Settled (.any config hooks True) r := settled_any_run ..
  have hstop : Settled (.any config hooks True) r.stop :=
    (reaches_apply hr Action.stop.keeps_any).settled
  have hlater := (reaches_any_run hstop after).settled
  have hw : w = (new config hooks).run (before ++ .stop :: (after ++ more)) := by
    show ((r.apply .stop).run after).run more = _
    rw [← run_append, run_append (new config hooks)]
    rfl
  have hmember (hs : s ∈ r.members) : w.AtRest s := by
    obtain ⟨k, hk⟩ := List.mem_iff_getElem?.mp hs
    obtain ⟨x, hx, hstage⟩ := (hr.sound.mem_iff s).mp hs
    obtain ⟨hbefore, hafter⟩ := removes_stop hr hopen hs
    have hnobody (j : Nat) : ¬ r.AttendsTo j s := by
      intro hattends
      have hgone : r.isGone s = true := isGone_of_attendsTo hattends
      exact Bool.false_ne_true (hbefore.symm.trans hgone)
    have hrest : (r.stop.run after).AtRest s := atRest_of_stop hr hopen hx hk hnobody
      (joinable_run hx hstage) (fun p d => onlyWrites_run hx hstage) hreturned htime
    exact atRest_run hlater (isGone_run hstop hafter after) hrest more
  refine ⟨fun hs => ?_, fun hs => ?_⟩
  · rw [hw]
    refine hookCalls_of_member hopen hs ?_
    rw [← hw]
    exact (hmember hs).unattended
  · by_cases hmem : s ∈ r.members
    · exact hmember hmem
    · rw [hw]
      exact atRest_of_not_mem hopen hmem (hs.resolve_left hmem) (after ++ more)

/-- One member; the stop and its farewell come to their ends while the clock stands still. -/
theorem at_rest_after_stop_of_member :
    let r := (new {} {}).run [.subscribe {}, .run (.call 1)]
    let v := (r.apply .stop).run [.run (.call 3), .run (.call 3), .run (.call 2)]
    r.stopped = false ∧ v.calls[2]? = some (.returned (.ok .nothing)) ∧
      v.now < r.now + r.config.removalTimeout.millis ∧ 0 ∈ r.members ∧
      ∀ more, (v.run more).hookCalls.count 0 = 1 ∧ (v.run more).AtRest 0 := by
  intro r v
  have hopen : r.stopped = false := by decide
  have hreturned : v.calls[2]? = some (.returned (.ok .nothing)) := rfl
  have htime : v.now < r.now + r.config.removalTimeout.millis := by decide
  have hmem : 0 ∈ r.members := by decide
  refine ⟨hopen, hreturned, htime, hmem, fun more => ?_⟩
  obtain ⟨hcount, hrest⟩ := at_rest_after_stop {} {} [.subscribe {}, .run (.call 1)]
    [.run (.call 3), .run (.call 3), .run (.call 2)] hopen hreturned htime more 0
  exact ⟨hcount hmem, hrest (.inl hmem)⟩

/-- A write of a worker has failed, and the worker runs the callback after the removal; the stop
does not wait for it. -/
theorem failed_worker_outlives_stop :
    let hooks : Hooks := { after := fun _ => .delay 1000 .succeed }
    let r := (new {} hooks).run [.subscribe { sink := .scripted [.fail .closed] }, .run (.call 1),
      .activate 0, .publishLive ⟨[⟨1, ""⟩]⟩, .run (.worker 0), .run (.worker 0), .run (.worker 0),
      .run (.worker 0)]
    let v := (r.apply .stop).run [.run (.call 2)]
    r.stopped = false ∧ v.calls[2]? = some (.returned (.ok .nothing)) ∧
      v.now < r.now + r.config.removalTimeout.millis ∧
      (v.session? 0).map (·.worker.isUp) = some true ∧
      v.posts 0 .worker = .busy {
        kind := .live
        keepAlive := false
        frame := ⟨[⟨1, ""⟩]⟩
        begun := 0
        point := .removing ⟨1000, .succeed⟩ } ∧ ¬ v.AtRest 0 := by
  intro hooks r v
  have hreturned : v.calls[2]? = some (.returned (.ok .nothing)) := by
    have hanswer : v.calls[2]?.bind Call.answer? = some (.ok .nothing) := by decide +kernel
    obtain ⟨c, hc, hanswered⟩ := Option.bind_eq_some_iff.mp hanswer
    rw [hc, Call.eq_returned hanswered]
  have hup : (v.session? 0).map (·.worker.isUp) = some true := by decide +kernel
  refine ⟨by decide +kernel, hreturned, by decide +kernel, hup, by decide +kernel, fun hrest => ?_⟩
  obtain ⟨x, hx, hxup⟩ := Option.map_eq_some_iff.mp hup
  rw [hrest.idle x hx] at hxup
  cases hxup

end Registry

end Multicast
