import Multicast.Proofs.Registry.CallList
import Multicast.Proofs.Registry.Membership

/-! Each subscriber is removed once. Of all that may remove it, calls, sweeps, failed writes and the
end of the registry, at most one does, is told so, and sees to it that the callback is called; once a
registry has stopped and all calls are over, each callback was called. -/

namespace Multicast

namespace Registry

variable {T : Terms} {r : Registry} {s : SessionId} {i : Nat} {c : Call} {action : Action}
  {actions : List Action} {config : Config} {hooks : Hooks}

/-! ### Unsubscriptions and sweeps -/

/-- Whoever unsubscribes and has removed the subscriber goes on to the answer that says so. -/
theorem takes_run (hr : Settled (.any config hooks True) r) (hc : r.calls[i]? = some c)
    (ht : c.Takes s) (actions : List Action) :
    ∃ c', (r.run actions).calls[i]? = some c' ∧ c'.Takes s := by
  induction actions generalizing r c with
  | nil => exact ⟨c, hc, ht⟩
  | cons action rest ih =>
    have hnext := (reaches_apply hr action.keeps_any).settled
    have htracked : c.Tracked := by
      cases c with
      | unsubscribing | returned | crashed => trivial
      | _ => exact ht.elim
    rcases tracked_apply hr hc htracked action with ⟨hsame, -⟩ | ⟨rfl, hready⟩
    · exact ih hnext hsame ht
    · obtain ⟨gone, called, c', hfollows, hc', -⟩ := goesOn_apply hr hc hready
      exact ih hnext hc' (hfollows.takes s ht)

/-- A call that has returned stays as it is. -/
theorem returned_run (hr : Settled (.any config hooks True) r) {answer : Except RegistryError Answer}
    (hc : r.calls[i]? = some (.returned answer)) (actions : List Action) :
    (r.run actions).calls[i]? = some (.returned answer) := by
  induction actions generalizing r with
  | nil => exact hc
  | cons action rest ih =>
    have hnext := (reaches_apply hr action.keeps_any).settled
    rcases tracked_apply hr hc trivial action with ⟨hsame, -⟩ | ⟨rfl, hready⟩
    · exact ih hnext hsame
    · cases hready

/-- A sweep that goes on counts one for each departure that it causes. -/
theorem swept_apply (hr : Settled (.any config hooks True) r) (hc : r.calls[i]? = some c) {n : Nat}
    (hs : c.Swept n) (action : Action) : ∃ c', (r.apply action).calls[i]? = some c' ∧
      c'.Swept (n + (r.departuresAt action).countP fun d => d.cause = .sweep i) := by
  have htracked : c.Tracked := by
    cases c with
    | sweeping | returned | crashed => trivial
    | _ => exact hs.elim
  rcases tracked_apply hr hc htracked action with ⟨hsame, hnone⟩ | ⟨rfl, hready⟩
  · refine ⟨c, hsame, ?_⟩
    have hzero : (r.departuresAt action).countP (fun d => decide (d.cause = .sweep i)) = 0 := by
      rw [List.countP_eq_zero]
      intro d hd
      exact mt of_decide_eq_true (hnone d hd)
    rwa [hzero, Nat.add_zero]
  · obtain ⟨gone, called, c', hfollows, hc', u, heffect, heq⟩ := goesOn_apply hr hc hready
    refine ⟨c', hc', ?_⟩
    -- only a sweep goes on here, and all who leave then leave by it
    have hcause : r.cause? (.run (.call i)) = some (.sweep i) := by
      simp only [cause?, hc, Option.bind_some]
      cases c with
      | sweeping => rfl
      | returned | crashed => cases hready
      | _ => exact hs.elim
    have hleavers : (leavers r (r.apply (.run (.call i)))).Perm gone := by
      rw [heq]
      exact leavers_perm heffect.gone_iff heffect.fresh heffect.nodup
    have hcount : (r.departuresAt (.run (.call i))).countP
        (fun d => decide (d.cause = .sweep i)) = gone.length := by
      simp only [departuresAt, hcause, countP_map_departure, decide_true, List.countP_true]
      exact hleavers.length_eq
    rw [hcount]
    exact hfollows.swept n hs

theorem swept_run (hr : Settled (.any config hooks True) r) (hc : r.calls[i]? = some c) {n : Nat}
    (hs : c.Swept n) (actions : List Action) : ∃ c', (r.run actions).calls[i]? = some c' ∧
      c'.Swept (n + (r.departures actions).countP fun d => d.cause = .sweep i) := by
  induction actions generalizing r c n with
  | nil => exact ⟨c, hc, hs⟩
  | cons action rest ih =>
    have hnext := (reaches_apply hr action.keeps_any).settled
    obtain ⟨c', hc', hs'⟩ := swept_apply hr hc hs action
    obtain ⟨c'', hc'', hs''⟩ := ih hnext hc' hs'
    refine ⟨c'', hc'', ?_⟩
    rwa [departures, List.countP_append, ← Nat.add_assoc]

/-! ### Which call departures belong to -/

/-- A departure names a call that is there. -/
theorem number_lt_of_mem_departuresAt (hr : Settled T r) {d : Departure} {j : Nat}
    (hd : d ∈ r.departuresAt action) (hj : d.cause = .unsubscribe j ∨ d.cause = .sweep j) :
    j < (r.apply action).calls.length := by
  have hlength {cs : List Call} {c : Call} (h : cs = r.calls ++ [c]) :
      r.calls.length < cs.length := by
    rw [h, List.length_append]
    exact Nat.lt_succ_self _
  rcases cause?_cases (mem_departuresAt.mp hd).1 with
    ⟨-, h⟩ | ⟨i, hi, -, h | h⟩ | ⟨⟨s, rfl⟩, h⟩ | ⟨rfl, h⟩ | ⟨-, h⟩ | ⟨-, h⟩
  · simp [h] at hj
  · simp [h] at hj
  · obtain rfl : i = j := by simpa [h] using hj
    exact hi.trans_le (length_calls_le hr action)
  · obtain rfl : r.calls.length = j := by simpa [h] using hj
    obtain ⟨c, hc⟩ := calls_unsubscribe (r := r) s
    exact hlength hc
  · obtain rfl : r.calls.length = j := by simpa [h] using hj
    obtain ⟨c, hc⟩ := calls_sweep (r := r)
    exact hlength hc
  · simp [h] at hj
  · simp [h] at hj

theorem length_calls_run_le (hr : Settled (.any config hooks True) r) (actions : List Action) :
    r.calls.length ≤ (r.run actions).calls.length := by
  induction actions generalizing r with
  | nil => exact Nat.le_refl _
  | cons action rest ih =>
    have hnext := (reaches_apply hr action.keeps_any).settled
    exact (length_calls_le hr action).trans (ih hnext)

theorem number_lt_of_mem_departures (hr : Settled (.any config hooks True) r) {d : Departure}
    {j : Nat} (hd : d ∈ r.departures actions)
    (hj : d.cause = .unsubscribe j ∨ d.cause = .sweep j) : j < (r.run actions).calls.length := by
  induction actions generalizing r with
  | nil => cases hd
  | cons action rest ih =>
    have hnext := (reaches_apply hr action.keeps_any).settled
    rcases List.mem_append.mp hd with hd | hd
    · exact (number_lt_of_mem_departuresAt hr hd hj).trans_le (length_calls_run_le hnext rest)
    · exact ih hnext hd

/-- A departure by an unsubscription happens when the call is made. -/
theorem number_ge_of_mem_departures (hr : Settled (.any config hooks True) r) {d : Departure}
    {j : Nat} (hd : d ∈ r.departures actions) (hj : d.cause = .unsubscribe j) :
    r.calls.length ≤ j := by
  induction actions generalizing r with
  | nil => cases hd
  | cons action rest ih =>
    have hnext := (reaches_apply hr action.keeps_any).settled
    rcases List.mem_append.mp hd with hd | hd
    · have hcause := (mem_departuresAt.mp hd).1
      rw [hj] at hcause
      have hown : (∃ s, action = .unsubscribe s) ∧ j = r.calls.length := by
        simpa using cause?_cases hcause
      exact hown.2.ge
    · exact (length_calls_le hr action).trans (ih hnext hd)

theorem departures_append (r : Registry) (before after : List Action) :
    r.departures (before ++ after) = r.departures before ++ (r.run before).departures after := by
  induction before generalizing r with
  | nil => rfl
  | cons action rest ih =>
    rw [List.cons_append, departures, ih, departures, List.append_assoc]
    rfl

/-! ### The beginning -/

theorem history_new (config : Config) (hooks : Hooks) : ∀ e ∈ (new config hooks).history,
    e.hooked? = none ∧ e.failed? = none := by
  obtain ⟨es, hes, hnew⟩ := exists_new_eq config hooks
  rw [hnew]
  intro e he
  have hopening := hes e he
  cases e with
  | periodRaised | started => exact ⟨rfl, rfl⟩
  | _ => exact hopening.elim

theorem hookCalls_new (config : Config) (hooks : Hooks) : (new config hooks).hookCalls = [] :=
  List.filterMap_eq_nil_iff.mpr fun e he => (history_new config hooks e he).1

theorem isGone_new (s : SessionId) : (new config hooks).isGone s = false := by
  rw [isGone, session?_new]
  rfl

theorem owed_new (config : Config) (hooks : Hooks) (s : SessionId) :
    (new config hooks).owed s = 0 := by
  rw [owed, (new_idle config hooks).2.2.2]
  apply List.sum_eq_zero_iff_forall_eq_nat.mpr
  intro n hn
  obtain ⟨c, hc, rfl⟩ := List.mem_map.mp hn
  rcases mem_loops hc with ⟨_, rfl⟩ | ⟨_, rfl⟩ <;> rfl

theorem told_new (config : Config) (hooks : Hooks) : (new config hooks).Told [] where
  announced s hs := by
    rw [isGone_new] at hs
    cases hs
  failed s hs := by
    have hnone : (new config hooks).history.filterMap Event.failed? = [] :=
      List.filterMap_eq_nil_iff.mpr fun e he => (history_new config hooks e he).2
    rw [hnone] at hs
    cases hs
  heard := by
    have hplain := history_new config hooks
    generalize (new config hooks).history = es at hplain
    induction es with
    | nil => trivial
    | cons e rest ih =>
      exact Heard.cons (ih fun e' he' => hplain e' (List.mem_cons_of_mem e he'))
        (hplain e List.mem_cons_self).1

/-! ### Single calls in a run -/

/-- The call that unsubscribes a subscriber has removed it just if the departure is its own; else it
has returned that there was nobody to remove. -/
theorem unsubscribe_run (hr : Settled (.any config hooks True) r) (s : SessionId)
    (after : List Action) :
    ∃ c, ((r.unsubscribe s).run after).calls[r.calls.length]? = some c ∧
      (⟨s, .unsubscribe r.calls.length⟩ ∈ r.departuresAt (.unsubscribe s) ∧ c.Takes s ∨
        ⟨s, .unsubscribe r.calls.length⟩ ∉ r.departuresAt (.unsubscribe s) ∧
          c = .returned (.ok (.flag false))) := by
  have hnext : Settled (.any config hooks True) (r.unsubscribe s) :=
    (reaches_apply hr (Action.unsubscribe s).keeps_any).settled
  have hmade {u : Registry} {c : Call} {gone called : List SessionId}
      (heffect : Effect (some .unsubscribed) gone called (r.addCall .crashed) u)
      (heq : r.unsubscribe s = u.setCall r.calls.length c) :
      (r.unsubscribe s).calls[r.calls.length]? = some c ∧
        ((⟨s, .unsubscribe r.calls.length⟩ : Departure) ∈ r.departuresAt (.unsubscribe s) ↔
          s ∈ gone) := by
    have hcalls : (r.unsubscribe s).calls = r.calls ++ [c] := calls_startCall heffect.calls heq
    have hperm : (leavers r (r.unsubscribe s)).Perm gone := by
      rw [heq]
      exact leavers_perm heffect.gone_iff heffect.fresh heffect.nodup
    refine ⟨by rw [hcalls]; exact List.getElem?_concat_length, ?_⟩
    show (⟨s, .unsubscribe r.calls.length⟩ : Departure) ∈ (leavers r (r.unsubscribe s)).map _ ↔ _
    rw [List.mem_map, ← hperm.mem_iff]
    constructor
    · rintro ⟨t, ht, heq'⟩
      cases heq'
      exact ht
    · exact fun ht => ⟨s, ht, rfl⟩
  rcases unsubscribe_cases r s with ⟨u, heffect, heq⟩ | ⟨called, u, c, heffect, -, htakes, heq⟩
  · obtain ⟨hget, hiff⟩ := hmade heffect heq
    refine ⟨_, returned_run hnext hget after, .inr ⟨?_, rfl⟩⟩
    rw [hiff]
    exact List.not_mem_nil
  · obtain ⟨hget, hiff⟩ := hmade heffect heq
    obtain ⟨c', hc', htakes'⟩ := takes_run hnext hget htakes after
    exact ⟨c', hc', .inl ⟨hiff.mpr List.mem_cons_self, htakes'⟩⟩

/-- Only the call itself brings about departures that bear its number. -/
theorem mem_departures_unsubscribe (hr : Settled (.any config hooks True) r)
    (before after : List Action) (s : SessionId) :
    (⟨s, .unsubscribe (r.run before).calls.length⟩ : Departure) ∈
        r.departures (before ++ .unsubscribe s :: after) ↔
      (⟨s, .unsubscribe (r.run before).calls.length⟩ : Departure) ∈
        (r.run before).departuresAt (.unsubscribe s) := by
  have hbefore := (reaches_run hr fun action (_ : action ∈ before) => action.keeps_any).settled
  have hnext := (reaches_apply hbefore (Action.unsubscribe s).keeps_any).settled
  rw [departures_append, departures, List.mem_append, List.mem_append]
  constructor
  · rintro (hd | hd | hd)
    · have hlt := number_lt_of_mem_departures hr hd (.inl rfl)
      exact absurd hlt (Nat.lt_irrefl _)
    · exact hd
    · have hle := number_ge_of_mem_departures hnext hd rfl
      obtain ⟨c, hc⟩ := calls_unsubscribe (r := r.run before) s
      have hlength : ((r.run before).apply (.unsubscribe s)).calls.length =
          (r.run before).calls.length + 1 := by
        rw [show ((r.run before).apply (.unsubscribe s)).calls = _ from hc, List.length_append,
          List.length_singleton]
      omega
  · exact fun hd => .inr (.inl hd)

/-- A sweep that is called stands as one that has counted those who departed by it. -/
theorem sweep_run (hr : Settled (.any config hooks True) r) (before after : List Action) :
    ∃ c, (r.run (before ++ .sweep :: after)).calls[(r.run before).calls.length]? = some c ∧
      c.Swept ((r.departures (before ++ .sweep :: after)).countP
        fun d => d.cause = .sweep (r.run before).calls.length) := by
  have hbefore := (reaches_run hr fun action (_ : action ∈ before) => action.keeps_any).settled
  have hnext := (reaches_apply hbefore Action.sweep.keeps_any).settled
  have hzero : (r.departures before).countP
      (fun d => decide (d.cause = .sweep (r.run before).calls.length)) = 0 := by
    rw [List.countP_eq_zero]
    intro d hd hcause
    have hlt := number_lt_of_mem_departures hr hd (.inr (of_decide_eq_true hcause))
    exact absurd hlt (Nat.lt_irrefl _)
  rw [run_append, departures_append, departures, List.countP_append, List.countP_append, hzero,
    Nat.zero_add]
  show ∃ c, (((r.run before).apply .sweep).run after).calls[_]? = some c ∧ _
  generalize r.run before = w at *
  -- what the call does at once
  obtain ⟨gone, heffect, hswept⟩ := effect_nextSweep (r := w.addCall .crashed) 0
    ((w.addCall .crashed).members.filter (w.addCall .crashed).isCancelled)
  rw [Nat.zero_add] at hswept
  obtain ⟨c, hc, hcount⟩ := settleCall_of_swept? (i := w.calls.length) hswept
  have happly : w.apply .sweep = ((w.addCall .crashed).beginSweep.1).setCall w.calls.length c := hc
  have hleavers : (leavers w (w.apply .sweep)).Perm gone := by
    rw [happly]
    exact leavers_perm heffect.gone_iff heffect.fresh heffect.nodup
  have hhere : (w.departuresAt .sweep).countP (fun d => decide (d.cause = .sweep w.calls.length)) =
      gone.length := by
    show ((leavers w (w.apply .sweep)).map fun s => (⟨s, .sweep w.calls.length⟩ : Departure)).countP
      _ = _
    rw [countP_map_departure]
    simp only [decide_true, List.countP_true]
    exact hleavers.length_eq
  have hcalls : (w.apply .sweep).calls = w.calls ++ [c] := calls_startCall heffect.calls hc
  have hget : (w.apply .sweep).calls[w.calls.length]? = some c := by
    rw [hcalls]
    exact List.getElem?_concat_length
  rw [hhere]
  exact swept_run hnext hget hcount after

/-! ### After the registry has stopped -/

/-- Nobody departs from a registry that is stopped and empty. -/
theorem departures_of_stopped (hr : Settled (.any config hooks True) r) (hs : r.stopped = true)
    (hall : r.AllGone) (actions : List Action) : r.departures actions = [] := by
  have hrun := passage_run hr actions
  apply List.eq_nil_iff_forall_not_mem.mpr
  intro d hd
  have hgone := (hrun.gone_iff d.session).mpr (.inr (List.mem_map_of_mem hd))
  obtain ⟨x, hx, _⟩ := isGone_iff.mp hgone
  have hlt : d.session < (r.run actions).sessions.length := (List.getElem?_eq_some_iff.mp hx).1
  -- whoever departs has been there since before the registry stopped
  rw [(hrun.closed hs).2] at hlt
  have hold := hall d.session hlt
  rw [hrun.fresh d hd] at hold
  cases hold

theorem stopped_stop (hr : Settled T r) : r.stop.stopped = true := by
  unfold stop
  split
  · rename_i hs
    exact hs
  · obtain ⟨es, _, hevacuate⟩ := evacuate_eq hr.sound
    rw [hevacuate]
    rfl

theorem drop_mem_of_departure {d : Departure} (hd : d ∈ r.departures actions)
    (hc : d.cause = .drop) : .drop ∈ actions := by
  induction actions generalizing r with
  | nil => cases hd
  | cons action rest ih =>
    rcases List.mem_append.mp hd with hd | hd
    · have hcause := (mem_departuresAt.mp hd).1
      rw [hc] at hcause
      obtain rfl : action = .drop := by simpa using cause?_cases hcause
      exact List.mem_cons_self
    · exact List.mem_cons_of_mem action (ih hd)

theorem owed_of_isOver (h : ∀ c ∈ r.calls, c.isOver = true) (s : SessionId) : r.owed s = 0 := by
  apply List.sum_eq_zero_iff_forall_eq_nat.mpr
  intro n hn
  obtain ⟨c, hc, rfl⟩ := List.mem_map.mp hn
  have hover := h c hc
  cases c with
  | returned | crashed => rfl
  | _ => cases hover

/-- A stop, unless the registry was dropped before, removes everybody with a callback to follow. -/
theorem departures_of_stop (config : Config) (hooks : Hooks) (before after : List Action)
    (hd : .drop ∉ before) :
    let r := (new config hooks).run (before ++ .stop :: after)
    r.AllGone ∧
      ∀ d ∈ (new config hooks).departures (before ++ .stop :: after), d.cause ≠ .drop := by
  have hnew : Settled (.any config hooks True) (new config hooks) := settled_new rfl rfl
  have hbefore := (reaches_run hnew fun action (_ : action ∈ before) => action.keeps_any).settled
  have hstop := (reaches_apply hbefore Action.stop.keeps_any).settled
  have hopen : (new config hooks).stopped = true → (new config hooks).AllGone := by
    intro h
    rw [(new_idle config hooks).2.1] at h
    cases h
  have hthen : (((new config hooks).run before).apply .stop).AllGone :=
    ((passage_run hnew before).trans (passage_apply hbefore .stop)).emptied hopen
      (stopped_stop hbefore)
  refine ⟨?_, ?_⟩
  · rw [run_append]
    have hafter := passage_run hstop after
    exact hafter.emptied (fun _ => hthen) (hafter.closed (stopped_stop hbefore)).1
  · intro d hmem
    rw [departures_append, departures, departures_of_stopped hstop (stopped_stop hbefore) hthen after,
      List.append_nil] at hmem
    rcases List.mem_append.mp hmem with hmem | hmem
    · exact fun hcause => hd (drop_mem_of_departure hmem hcause)
    · have hcause : some Cause.stop = some d.cause := (mem_departuresAt.mp hmem).1
      rw [← Option.some.inj hcause]
      exact nofun

/-! ### Every run -/

/-- What is heard of a callback when the history is cut at its call. -/
theorem heard_of_append {E : List SessionId} {later earlier : List Event} {who : SessionName}
    {stage : Stage} {writes : Nat} {position : Option Nat}
    (h : Heard E (later ++ .afterRemoved who stage writes position :: earlier)) :
    stage = .removed ∧ (who.id ∈ E ∨ who.id ∈ earlier.filterMap Event.announced?) := by
  induction later with
  | nil => exact h.1
  | cons e rest ih =>
    apply ih
    cases e with
    | afterRemoved => exact h.2
    | _ => exact h

theorem passage_new (config : Config) (hooks : Hooks) (actions : List Action) :
    Passage ((new config hooks).departures actions) (new config hooks)
      ((new config hooks).run actions) :=
  passage_run (settled_new rfl rfl) actions

theorem countP_session_le (out : List Departure) (s : SessionId) :
    (out.countP fun d => d.session = s ∧ d.cause ≠ .drop) ≤
      (out.map Departure.session).count s := by
  rw [List.count, List.countP_map]
  apply List.countP_mono_left
  intro d _ hd
  exact beq_iff_eq.mpr (of_decide_eq_true hd).1

/-- Callbacks are called or owed, one for each departure but those of a drop. -/
theorem owes_of_run (config : Config) (hooks : Hooks) (actions : List Action) (s : SessionId) :
    ((new config hooks).run actions).hookCalls.count s + ((new config hooks).run actions).owed s =
      ((new config hooks).departures actions).countP
        fun d => d.session = s ∧ d.cause ≠ .drop := by
  have howes := (passage_new config hooks actions).owes s
  rw [hookCalls_new, owed_new, List.count_nil, Nat.zero_add] at howes
  exact howes

/-- The callback of a subscriber is called when it is removed and has left the set, and was reported
as removed or left with everybody else. -/
theorem callback_of_run (config : Config) (hooks : Hooks) (actions : List Action)
    {later earlier : List Event} {who : SessionName} {stage : Stage} {writes : Nat}
    {position : Option Nat} (h : ((new config hooks).run actions).history =
      later ++ .afterRemoved who stage writes position :: earlier) :
    let r := (new config hooks).run actions
    stage = .removed ∧ r.isGone who.id = true ∧ who.id ∉ r.members ∧ who.id ∈ r.subscribed ∧
      (⟨who.id, .stop⟩ ∈ (new config hooks).departures actions ∨
        ∃ name reason remaining, Event.removed name reason remaining ∈ earlier ∧
          name.id = who.id) := by
  intro r
  have hsettled : Settled (.any config hooks True) r :=
    settled_run rfl rfl fun action _ => action.keeps_any
  have hpassage := passage_new config hooks actions
  -- the callback was called, so that a departure other than by a drop comes with it
  have hcalled : 0 < r.hookCalls.count who.id := by
    rw [List.count_pos_iff, hookCalls, h, List.filterMap_append]
    exact List.mem_append_right _ List.mem_cons_self
  have hpos : 0 < ((new config hooks).departures actions).countP
      (fun d => decide (d.session = who.id ∧ d.cause ≠ .drop)) := by
    rw [← owes_of_run config hooks actions who.id]
    exact Nat.add_pos_left hcalled _
  obtain ⟨d, hd, hmine⟩ := List.countP_pos_iff.mp hpos
  obtain ⟨hsession, hcause⟩ := of_decide_eq_true hmine
  have hgone : r.isGone who.id = true := by
    rw [hpassage.gone_iff, ← hsession]
    exact .inr (List.mem_map_of_mem hd)
  obtain ⟨x, hx, hstage⟩ := isGone_iff.mp hgone
  have htold := (hpassage.told [] (told_new config hooks)).heard
  rw [h] at htold
  obtain ⟨hremoved, hwho⟩ := heard_of_append htold
  refine ⟨hremoved, hgone, ?_, hsettled.mem_subscribed_iff.mpr ⟨x, hx⟩, ?_⟩
  · intro hmem
    exact (hsettled.sound.member_iff hx).1.mp hmem hstage
  · rcases hwho with hall | hname
    · rw [List.nil_append, unannounced] at hall
      obtain ⟨e, he, hes⟩ := List.mem_map.mp hall
      obtain ⟨hemem, hecause⟩ := List.mem_filter.mp he
      -- nobody departs twice
      have hsame : e = d := List.inj_on_of_nodup_map hpassage.nodup hemem hd (hes.trans hsession.symm)
      subst hsame
      have hstop := (of_decide_eq_true hecause).resolve_right hcause
      refine .inl ?_
      have hd' : (⟨who.id, .stop⟩ : Departure) = e := by
        rw [← hsession, ← hstop]
      rw [hd']
      exact hemem
    · obtain ⟨e, he, hsome⟩ := List.mem_filterMap.mp hname
      cases e with
      | removed name reason remaining =>
        exact .inr ⟨name, reason, remaining, he, Option.some.inj hsome⟩
      | _ => cases hsome

/-- Each subscriber is removed once. In every run no subscriber departs twice, and those who have
departed are those who are removed; each departure is counted under its reason. A call that
unsubscribes a subscriber has removed it just if the departure is its own, and has found nobody to
remove if not; a sweep that was called counts those who departed by it. The callback after a removal
is called at most once, for a subscriber that a registration has brought in, after it was removed and
has left the set; and once the registry has stopped and all calls are over, it was called exactly
once for each subscriber, unless the registry had been dropped. -/
theorem removed_once (config : Config) (hooks : Hooks) (actions : List Action) :
    let r := (new config hooks).run actions
    let out := (new config hooks).departures actions
    (out.map Departure.session).Nodup ∧
      (∀ s, r.isGone s = true ↔ s ∈ out.map Departure.session) ∧
      (∀ reason, r.metrics.value (.removed reason) =
        out.countP fun d => d.cause.reason? = some reason) ∧
      (∀ before s after, actions = before ++ .unsubscribe s :: after →
        let i := ((new config hooks).run before).calls.length
        ∃ c, r.calls[i]? = some c ∧ (⟨s, .unsubscribe i⟩ ∈ out ∧ c.Takes s ∨
          ⟨s, .unsubscribe i⟩ ∉ out ∧ c = .returned (.ok (.flag false)))) ∧
      (∀ before after, actions = before ++ .sweep :: after →
        let i := ((new config hooks).run before).calls.length
        ∃ c, r.calls[i]? = some c ∧ c.Swept (out.countP fun d => d.cause = .sweep i)) ∧
      (∀ s, r.hookCalls.count s ≤ 1) ∧
      (∀ later who stage writes position earlier,
        r.history = later ++ .afterRemoved who stage writes position :: earlier →
          stage = .removed ∧ r.isGone who.id = true ∧ who.id ∉ r.members ∧
            who.id ∈ r.subscribed ∧ (⟨who.id, .stop⟩ ∈ out ∨
              ∃ name reason remaining, Event.removed name reason remaining ∈ earlier ∧
                name.id = who.id)) ∧
      ∀ before after, actions = before ++ .stop :: after → .drop ∉ before →
        (∀ c ∈ r.calls, c.isOver = true) → ∀ s ∈ r.subscribed, r.hookCalls.count s = 1 := by
  intro r out
  have hnew : Settled (.any config hooks True) (new config hooks) := settled_new rfl rfl
  have hsettled : Settled (.any config hooks True) r :=
    settled_run rfl rfl fun action _ => action.keeps_any
  have hpassage : Passage out (new config hooks) r := passage_new config hooks actions
  have hgone (s : SessionId) : r.isGone s = true ↔ s ∈ out.map Departure.session := by
    rw [hpassage.gone_iff, isGone_new]
    exact or_iff_right Bool.false_ne_true
  refine ⟨hpassage.nodup, hgone, ?_, ?_, ?_, ?_, ?_, ?_⟩
  · intro reason
    rw [hpassage.counted, (new_blank config hooks).2.2]
    exact Nat.zero_add _
  · rintro before s after rfl i
    have hbefore : Settled (.any config hooks True) ((new config hooks).run before) :=
      settled_run rfl rfl fun action _ => action.keeps_any
    obtain ⟨c, hc, hcase⟩ := unsubscribe_run hbefore s after
    rw [← mem_departures_unsubscribe hnew before after s] at hcase
    refine ⟨c, ?_, hcase⟩
    show ((new config hooks).run (before ++ .unsubscribe s :: after)).calls[i]? = some c
    rw [run_append]
    exact hc
  · rintro before after rfl
    exact sweep_run hnew before after
  · intro s
    have howes := owes_of_run config hooks actions s
    have hle := countP_session_le out s
    have hone := List.nodup_iff_count_le_one.mp hpassage.nodup s
    exact (Nat.le_add_right _ _).trans (howes.le.trans (hle.trans hone))
  · intro later who stage writes position earlier h
    exact callback_of_run config hooks actions h
  · rintro before after rfl hd hover s hs
    obtain ⟨hall, hcauses⟩ := departures_of_stop config hooks before after hd
    obtain ⟨x, hx⟩ := hsettled.mem_subscribed_iff.mp hs
    have hmem : s ∈ out.map Departure.session :=
      (hgone s).mp (hall s (List.getElem?_eq_some_iff.mp hx).1)
    have howes := owes_of_run config hooks (before ++ .stop :: after) s
    rw [owed_of_isOver hover, Nat.add_zero] at howes
    have hcount : out.countP (fun d => decide (d.session = s ∧ d.cause ≠ .drop)) =
        (out.map Departure.session).count s := by
      rw [List.count, List.countP_map]
      apply List.countP_congr
      intro d hd
      simp [hcauses d hd]
    exact howes.trans (hcount.trans (List.count_eq_one_of_mem hpassage.nodup hmem))

/-- Two subscribers; one is unsubscribed twice before the registry stops, and every call comes to its
end. -/
example :
    let r := (new {} {}).run [.subscribe {}, .run (.call 1), .subscribe {}, .run (.call 2),
      .unsubscribe 0, .unsubscribe 0, .run (.call 3), .stop, .run (.call 6), .run (.call 6),
      .run (.call 5), .run (.call 0), .run (.call 0), .run (.call 0)]
    (∀ c ∈ r.calls, c.isOver = true) ∧ r.subscribed = [0, 1] ∧ r.hookCalls = [1, 0] := by
  decide +kernel

end Registry

end Multicast
