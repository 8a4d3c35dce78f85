import Mathlib.Data.List.Induction
import Multicast.Proofs.Registry.Attended
import Multicast.Proofs.Traffic.Milestones

/-! The course of a backfill. A call that publishes a batch past the queues goes from one subscriber
to the next while anything else happens between its steps. Each of those who were registered when it
was made is delivered to once and in turn, or passed over because it is cancelled or removed by
then. -/

namespace Multicast

open Registry

/-! ### The order of registration -/

/-- Whoever is registered comes after those who were there before. -/
theorem Shift.increasing {T : Terms} {a b : Posted} (h : Shift T a b) (hs : Sound T a)
    (hi : a.registry.members.Pairwise (· < ·)) : b.registry.members.Pairwise (· < ·) := by
  cases h with
  | turn t =>
    cases t with
    | note | count | lane => exact hi
    | detach reason hx hr ht =>
      obtain ⟨es, -, hdetach⟩ := detach_eq hx hr reason
      rw [hdetach]
      exact hi.filter _
  | beside | lane => exact hi
  | @enrol r P request =>
    refine List.pairwise_append.mpr ⟨hi, List.pairwise_singleton _ _, ?_⟩
    intro s hmem t ht
    obtain rfl := List.mem_singleton.mp ht
    obtain ⟨x, hx, -⟩ := (hs.mem_iff s).mp hmem
    exact (List.getElem?_eq_some_iff.mp hx).1
  | evacuate => exact List.Pairwise.nil

namespace Call

/-- Whether a call is a backfill of the batch `b`, or has come to its end as one. -/
def Backfills (b : Batch Nat) : Call → Prop
  | .backfilling f => f.batch = b ∧ f.current.batch = b ∧ f.current.kind = .historical
  | .returned (.ok (.count _)) | .crashed => True
  | _ => False

/-- The subscribers whose turn has not come yet. -/
def upcoming : Call → List SessionId
  | .backfilling f => f.rest
  | _ => []

/-- The subscriber at whose gate a backfill stands in line. -/
def atGate : Call → List SessionId
  | .backfilling f => if f.current.delivery.isNone then [f.current.session] else []
  | _ => []

/-- The subscriber to which a backfill delivers. -/
def serving : Call → List SessionId
  | .backfilling f => if f.current.delivery.isSome then [f.current.session] else []
  | _ => []

/-- The subscribers that a backfill has not begun to deliver to. -/
def ahead (c : Call) : List SessionId := c.atGate ++ c.upcoming

/-- What a backfill has counted. -/
def counted : Call → Nat
  | .backfilling f => f.attempted
  | .returned (.ok (.count n)) => n
  | _ => 0

end Call

namespace Registry

/-- The subscribers whose turn has not come yet in the backfill with the number `i`: all, as long as
the call has not been made. -/
def upcoming (r : Registry) (i : Nat) : List SessionId :=
  match r.calls[i]? with
  | some c => c.upcoming
  | none => r.members

/-- The subscribers that the backfill with the number `i` has not begun to deliver to. -/
def ahead (r : Registry) (i : Nat) : List SessionId :=
  match r.calls[i]? with
  | some c => c.ahead
  | none => r.members

/-- Whether an action makes the backfill with the number `i` or lets the call go on. -/
def worksOn (r : Registry) (i : Nat) : Action → Bool
  | .publishHistorical _ => r.calls.length == i
  | .run (.call j) => j == i
  | _ => false

/-- The events between two states, the earliest first. -/
def news (r v : Registry) : List Event :=
  (v.history.take (v.history.length - r.history.length)).reverse

/-- What the backfill with the number `i` tells in one action. -/
def tellsBy (r : Registry) (i : Nat) (action : Action) : List Event :=
  if r.worksOn i action then r.news (r.apply action) else []

/-- What the backfill with the number `i` tells in the course of the actions, the earliest first. -/
def told (i : Nat) (r : Registry) : List Action → List Event
  | [] => []
  | action :: rest => r.tellsBy i action ++ told i (r.apply action) rest

/-- Whether in the course of the actions the backfill with the number `i` has left a subscriber
behind without a delivery: it was removed by then, or its turn came and it was cancelled. -/
def PassesOver (r : Registry) (i : Nat) (actions : List Action) (s : SessionId) : Prop :=
  ∃ w a, w ++ [a] <+: actions ∧ s ∈ (r.run w).ahead i ∧ s ∉ (r.run (w ++ [a])).ahead i ∧
    ((r.run (w ++ [a])).isGone s = true ∨
      s ∈ (r.run w).upcoming i ∧ (r.run (w ++ [a])).isCancelled s = true)

variable {T : Terms} {r u v w : Registry} {s : SessionId} {x : Session} {p : Party} {b : Batch Nat}
  {i n : Nat} {c c' : Call} {ms : List Milestone} {actions : List Action} {action : Action}

/-! ### What is told -/

theorem news_of_append {es : List Event} (h : v.history = es ++ r.history) :
    r.news v = es.reverse := by
  rw [news, h, List.length_append, Nat.add_sub_cancel, List.take_left]

theorem Tells.news (h : Tells r b ms v) : (r.news v).filterMap Event.milestone? = ms ∧
    ∀ e ∈ r.news v, e.Hands r b := by
  obtain ⟨es, hes, hms, hhands⟩ := h
  rw [news_of_append hes]
  exact ⟨hms, fun e he => hhands e (List.mem_reverse.mp he)⟩

theorem told_concat (i : Nat) (r : Registry) (actions : List Action) (a : Action) :
    told i r (actions ++ [a]) = told i r actions ++ (r.run actions).tellsBy i a := by
  induction actions generalizing r with
  | nil => exact List.append_nil _
  | cons first rest ih =>
    rw [List.cons_append, told, told, ih, List.append_assoc]
    rfl

theorem PassesOver.mono (h : r.PassesOver i actions s) (a : Action) :
    r.PassesOver i (actions ++ [a]) s := by
  obtain ⟨w, a', hw, hrest⟩ := h
  exact ⟨w, a', hw.trans (List.prefix_append _ _), hrest⟩

theorem ahead_of_call (hc : r.calls[i]? = some c) : r.ahead i = c.ahead := by
  simp only [ahead, hc]

theorem upcoming_of_call (hc : r.calls[i]? = some c) : r.upcoming i = c.upcoming := by
  simp only [upcoming, hc]

/-- Those who are registered stand in the order in which they came. -/
theorem members_increasing (config : Config) (hooks : Hooks) (actions : List Action) :
    ((new config hooks).run actions).members.Pairwise (· < ·) := by
  have hnew : Settled (.any config hooks True) (new config hooks) := settled_new rfl rfl
  have hall {b : Posted}
      (h : Shifts (.any config hooks True) ⟨new config hooks, (new config hooks).posts⟩ b) :
      b.registry.members.Pairwise (· < ·) := by
    induction h with
    | refl =>
      show (new config hooks).members.Pairwise (· < ·)
      rw [(new_blank config hooks).2.1]
      exact List.Pairwise.nil
    | tail hbefore hstep ih => exact hstep.increasing (hnew.sound.shifts hbefore) ih
  exact hall (reaches_any_run hnew actions).shifts

/-! ### The next subscriber -/

/-- A backfill has gone on to the subscribers `ss`, having counted `n`: those that it does not stand
before now are removed or cancelled. -/
structure MovesOn (v : Registry) (b : Batch Nat) (ss : List SessionId) (n : Nat) (c : Call) :
    Prop where
  backfills : c.Backfills b
  serving : c.serving = []
  counted : c.counted = n
  ahead : ∃ left, ss = left ++ c.ahead ∧ ∀ t ∈ left, v.isGone t = true ∨ v.isCancelled t = true

theorem MovesOn.mono {ss : List SessionId} (h : MovesOn r b ss n c)
    (hg : ∀ t, r.isGone t = true → v.isGone t = true)
    (hc : ∀ t, r.isCancelled t = true → v.isCancelled t = true) : MovesOn v b ss n c := by
  obtain ⟨left, hss, hover⟩ := h.ahead
  exact ⟨h.backfills, h.serving, h.counted, left, hss, fun t ht => (hover t ht).imp (hg t) (hc t)⟩

/-- One more subscriber that is removed or cancelled is passed over. -/
theorem MovesOn.cons {ss : List SessionId} (h : MovesOn r b ss n c)
    (hs : r.isGone s = true ∨ r.isCancelled s = true) : MovesOn r b (s :: ss) n c := by
  obtain ⟨left, rfl, hover⟩ := h.ahead
  exact ⟨h.backfills, h.serving, h.counted, s :: left, rfl, List.forall_mem_cons.mpr ⟨hs, hover⟩⟩

/-- Where a backfill stands that has gone on. -/
def backfillCall : Progress Backfill Nat → Call
  | .running f => .backfilling f
  | .done n => returnedCount n
  | .crashed => .crashed

theorem settleCall_backfill (i : Nat) (o : Registry × Progress Backfill Nat) :
    settleCall i .backfilling returnedCount o = o.1.setCall i (backfillCall o.2) := by
  obtain ⟨w, progress⟩ := o
  cases progress <;> rfl

/-- A gate is refused only by a subscriber that is removed. -/
theorem isGone_of_askGate {P : Posts} (hs : Sound T ⟨r, P⟩) (hx : r.session? s = some x)
    (h : r.askGate s p = (v, false)) : r.isGone s = true := by
  have hclosed : x.queue.closed = true := by
    by_contra hopen
    simp [askGate, hx, Queue.ask, hopen] at h
  exact (isGone_of_session? hx).mpr ((hs.lawful s x hx).closed.mp hclosed)

theorem history_askGate : (r.askGate s p).1.history = r.history := by
  unfold askGate
  split
  · rfl
  · split <;> rfl

theorem history_nextBackfill (n : Nat) (ss : List SessionId) :
    (r.nextBackfill p b n ss).1.history = r.history := by
  induction ss with
  | nil => rfl
  | cons s later ih =>
    have hasked := history_askGate (r := r) (s := s) (p := p)
    rw [nextBackfill]
    split
    · exact ih
    · split
      · rename_i w hgate
        rwa [hgate] at hasked
      · exact ih

/-- Nobody is passed over but those who are cancelled or removed. -/
theorem movesOn_nextBackfill {P : Posts} (hs : Sound T ⟨r, P⟩) (n : Nat) {ss : List SessionId}
    (hss : ∀ t ∈ ss, ∃ x, r.session? t = some x) :
    MovesOn r b ss n (backfillCall (r.nextBackfill p b n ss).2) := by
  induction ss with
  | nil => exact ⟨trivial, rfl, rfl, [], rfl, nofun⟩
  | cons s later ih =>
    have hlater := ih fun t ht => hss t (List.mem_cons_of_mem s ht)
    rw [nextBackfill]
    split
    · rename_i hcancelled
      exact hlater.cons (.inr hcancelled)
    · split
      · exact ⟨⟨rfl, rfl, rfl⟩, rfl, rfl, [], rfl, nofun⟩
      · rename_i w hgate
        obtain ⟨x, hx⟩ := hss s List.mem_cons_self
        exact hlater.cons (.inl (isGone_of_askGate hs hx hgate))

/-- The call stands where the backfill has gone on to. -/
theorem settles_nextBackfill {P : Posts} (hs : Sound T ⟨r, P⟩) (n : Nat) {ss : List SessionId}
    (hss : ∀ t ∈ ss, ∃ x, r.session? t = some x) (hi : i < r.calls.length) (hv : v =
      settleCall i .backfilling returnedCount (r.nextBackfill (.call i) b n ss)) :
    v.history = r.history ∧ ∃ c, v.calls[i]? = some c ∧ MovesOn v b ss n c := by
  have heffect : Effect none [] [] r (r.nextBackfill (.call i) b n ss).1 :=
    effect_nextBackfill n ss
  have hcarries := carries_nextBackfill (r := r) (p := .call i) (b := b) n ss
  have hmoves := movesOn_nextBackfill (p := .call i) (b := b) hs n hss
  rw [settleCall_backfill] at hv
  subst hv
  refine ⟨history_nextBackfill n ss, _, List.getElem?_set_self ?_, hmoves.mono ?_ ?_⟩
  · rw [heffect.calls]
    exact hi
  · exact fun t ht => (heffect.gone_iff t).mpr (.inl ht)
  · exact fun t ht => (hcarries.isCancelled t).trans ht

/-! ### Single moves -/

/-- What can become of a backfill in one action, as long as it does not crash, and what it tells. -/
inductive BackfillMove (v : Registry) (b : Batch Nat) (c c' : Call) : List Milestone → Prop
  | stays (hb : c'.Backfills b) (hgate : c'.atGate = c.atGate) (hserving : c'.serving = c.serving)
      (hup : c'.upcoming = c.upcoming) (hn : c'.counted = c.counted) : BackfillMove v b c c' []
  | begins {s : SessionId} (hb : c'.Backfills b) (hgate : c.atGate = [s])
      (hserving : c.serving = []) (hgate' : c'.atGate = []) (hserving' : c'.serving = [s])
      (hup : c'.upcoming = c.upcoming) (hn : c'.counted = c.counted) :
      BackfillMove v b c c' [.begins s]
  /-- The subscriber was removed while the backfill stood in line. -/
  | shutOut {s : SessionId} (hgate : c.atGate = [s]) (hserving : c.serving = [])
      (hgone : v.isGone s = true) (hnext : MovesOn v b c.upcoming c.counted c') :
      BackfillMove v b c c' []
  | skips {s : SessionId} (hgate : c.atGate = [s]) (hserving : c.serving = [])
      (hnext : MovesOn v b c.upcoming (c.counted + 1) c') :
      BackfillMove v b c c' [.begins s, .ends s]
  | ends {s : SessionId} (hgate : c.atGate = []) (hserving : c.serving = [s])
      (hnext : MovesOn v b c.upcoming (c.counted + 1) c') : BackfillMove v b c c' [.ends s]

theorem BackfillMove.backfills (h : BackfillMove v b c c' ms) : c'.Backfills b := by
  cases h with
  | stays hb | begins hb => exact hb
  | shutOut _ _ _ hnext | skips _ _ hnext | ends _ _ hnext => exact hnext.backfills

theorem BackfillMove.refl (h : c.Backfills b) : BackfillMove v b c c [] := .stays h rfl rfl rfl rfl

section
variable {f : Backfill}

theorem atGate_of_line (h : f.current.delivery = none) :
    (Call.backfilling f).atGate = [f.current.session] := by simp [Call.atGate, h]

theorem serving_of_line (h : f.current.delivery = none) : (Call.backfilling f).serving = [] := by
  simp [Call.serving, h]

theorem atGate_of_run {run : Delivery} (h : f.current.delivery = some run) :
    (Call.backfilling f).atGate = [] := by simp [Call.atGate, h]

theorem serving_of_run {run : Delivery} (h : f.current.delivery = some run) :
    (Call.backfilling f).serving = [f.current.session] := by simp [Call.serving, h]

/-- A backfill that need not wait makes a move or crashes. -/
theorem backfillMove_run (hr : Settled T r) (hc : r.calls[i]? = some (.backfilling f))
    (hb : (Call.backfilling f).Backfills b) (hss : ∀ t ∈ f.rest, ∃ x, r.session? t = some x)
    (hready : r.callReady i (.backfilling f) = true) (hv : v = r.apply (.run (.call i))) :
    v.calls[i]? = some .crashed ∨ ∃ c' ms, v.calls[i]? = some c' ∧ r.Tells b ms v ∧
      BackfillMove v b (.backfilling f) c' ms := by
  have hlt : i < r.calls.length := (List.getElem?_eq_some_iff.mp hc).1
  have hplaced := hr.placed _ (List.mem_of_getElem? hc)
  have hgone (t : SessionId) (ht : r.isGone t = true) : v.isGone t = true :=
    hv ▸ isGone_apply hr ht
  obtain ⟨rfl, hbatch, hkind⟩ := hb
  obtain ⟨x, hx⟩ := hplaced.directs.known f.current List.mem_cons_self
  obtain ⟨hturns, -⟩ := turns_directStep_single hr.sound hplaced.directs
    (congrFun (posts_call hc)) hready
  obtain ⟨gone, hdelivers⟩ := delivers_directStep (r := r) (p := .call i) f.current
  have hstrides := strides_directStep (p := .call i) hkind hx
  rw [apply_call hc hready, callStep] at hv
  unfold backfillStep at hv
  rcases hstep : r.directStep (.call i) f.current with ⟨w, progress⟩
  rw [hstep] at hv hdelivers hturns hstrides
  have hwlt : i < w.calls.length := hdelivers.calls ▸ hlt
  -- after a delivery the backfill goes on from a sound state, in which everybody is known still
  have hnext (n : Nat) (hv : v = settleCall i .backfilling returnedCount
      (w.nextBackfill (.call i) f.batch n f.rest)) :
      v.history = w.history ∧ ∃ c, v.calls[i]? = some c ∧ MovesOn v f.batch f.rest n c := by
    refine settles_nextBackfill (hr.sound.shifts hturns.shifts) n ?_ hwlt hv
    intro t ht
    obtain ⟨y, hy⟩ := hss t ht
    obtain ⟨z, hz, -⟩ := hturns.shifts.known hy
    exact ⟨z, hz⟩
  cases hstrides with
  | crashes => exact .inl (hv ▸ List.getElem?_set_self hwlt)
  | shutOut hline hx' hclosed ht =>
    obtain ⟨hhistory, c', hc', hmoves⟩ := hnext _ hv
    have hremoved := (isGone_of_session? hx').mpr ((hr.sound.lawful _ _ hx').closed.mp hclosed)
    exact .inr ⟨c', _, hc', (hbatch ▸ ht).congr hhistory,
      .shutOut (atGate_of_line hline) (serving_of_line hline) (hgone _ hremoved) hmoves⟩
  | skips hline ht =>
    obtain ⟨hhistory, c', hc', hmoves⟩ := hnext _ hv
    exact .inr ⟨c', _, hc', (hbatch ▸ ht).congr hhistory,
      .skips (atGate_of_line hline) (serving_of_line hline) hmoves⟩
  | ends hrun ht =>
    obtain ⟨hhistory, c', hc', hmoves⟩ := hnext _ hv
    exact .inr ⟨c', _, hc', (hbatch ▸ ht).congr hhistory,
      .ends (atGate_of_run hrun) (serving_of_run hrun) hmoves⟩
  | begins hline ht =>
    subst hv
    refine .inr ⟨_, _, List.getElem?_set_self hwlt, (hbatch ▸ ht).congr rfl, ?_⟩
    exact .begins ⟨rfl, hbatch, hkind⟩ (atGate_of_line hline) (serving_of_line hline) rfl rfl rfl
      rfl
  | goesOn hrun ht =>
    subst hv
    refine .inr ⟨_, _, List.getElem?_set_self hwlt, (hbatch ▸ ht).congr rfl, ?_⟩
    exact .stays ⟨rfl, hbatch, hkind⟩ (atGate_of_run hrun).symm (serving_of_run hrun).symm rfl rfl

end

theorem worksOn_iff (hi : i < r.calls.length) :
    r.worksOn i action = true ↔ action = .run (.call i) := by
  unfold worksOn
  split
  · simp only [beq_iff_eq, reduceCtorEq, iff_false]
    omega
  · simp
  · rename_i hrun
    simp only [Bool.false_eq_true, false_iff]
    exact hrun i

/-- A backfill tells nothing while something else happens, or while it has to wait. -/
theorem tellsBy_of_idle (hi : i < r.calls.length)
    (h : action = .run (.call i) → r.apply action = r) : r.tellsBy i action = [] := by
  unfold tellsBy
  split
  · rename_i hworks
    rw [h ((worksOn_iff hi).mp hworks)]
    exact @news_of_append r r [] rfl
  · rfl

/-- In any action a backfill makes a move, if only that of staying where it stands, or crashes. -/
theorem backfillMove_apply (hr : Settled T r) (hc : r.calls[i]? = some c) (hb : c.Backfills b)
    (hss : ∀ t ∈ c.upcoming, ∃ x, r.session? t = some x) (action : Action) :
    (r.apply action).calls[i]? = some .crashed ∨ ∃ c' ms, (r.apply action).calls[i]? = some c' ∧
      (r.tellsBy i action).filterMap Event.milestone? = ms ∧
      (∀ e ∈ r.tellsBy i action, e.Hands r b) ∧ BackfillMove (r.apply action) b c c' ms := by
  have hlt : i < r.calls.length := (List.getElem?_eq_some_iff.mp hc).1
  have hidle {c' : Call} (hc' : (r.apply action).calls[i]? = some c')
      (ha : action = .run (.call i) → r.apply action = r)
      (hm : BackfillMove (r.apply action) b c c' []) : ∃ c' ms,
        (r.apply action).calls[i]? = some c' ∧
        (r.tellsBy i action).filterMap Event.milestone? = ms ∧
        (∀ e ∈ r.tellsBy i action, e.Hands r b) ∧ BackfillMove (r.apply action) b c c' ms := by
    rw [tellsBy_of_idle hlt ha]
    exact ⟨c', [], hc', rfl, nofun, hm⟩
  by_cases ha : action = .run (.call i)
  · subst ha
    cases hready : r.callReady i c with
    | false =>
      have hsame := apply_call_of_waiting hc hready
      refine .inr (hidle (by rw [hsame]; exact hc) (fun _ => hsame) (.refl hb))
    | true =>
      cases c with
      | backfilling f =>
        refine (backfillMove_run hr hc hb hss hready rfl).imp_right ?_
        rintro ⟨c', ms, hc', htells, hmove⟩
        obtain ⟨hms, hhands⟩ := htells.news
        have htells : r.tellsBy i (.run (.call i)) = r.news (r.apply (.run (.call i))) :=
          if_pos ((worksOn_iff hlt).mpr rfl)
        rw [htells]
        exact ⟨c', ms, hc', hms, hhands, hmove⟩
      | returned | crashed => cases hready
      | _ => exact hb.elim
  · refine .inr ?_
    rcases calls_apply hr action with ⟨cs, hcs, -⟩ | ⟨j, d, d', hd, hset, -, hwho⟩
    · refine hidle ?_ (absurd · ha) (.refl hb)
      rw [hcs, List.getElem?_append_left hlt]
      exact hc
    · by_cases hij : j = i
      · subst hij
        obtain rfl := Option.some.inj (hd.symm.trans hc)
        cases d with
        | backfilling f =>
          rcases (hwho.resolve_left fun hrun => ha hrun.1).2 with rfl | ⟨s, o, rfl, hrelease⟩
          · -- only loops have ticks
            have hsame : r.apply (.tick j) = r := by simp only [apply, tick, hc]
            exact hidle (by rw [hsame]; exact hc) (absurd · ha) (.refl hb)
          · obtain ⟨e, he, rfl⟩ := Option.map_eq_some_iff.mp hrelease
            obtain ⟨run, run', -, -, hrun, rfl⟩ := releaseDirect?_some he
            have hnow := congrArg (·[j]?) hset
            rw [List.getElem?_set_self hlt] at hnow
            refine hidle hnow (absurd · ha) (.stays hb ?_ ?_ rfl rfl)
            · exact (atGate_of_run hrun).symm
            · exact (serving_of_run hrun).symm
        | returned | crashed =>
          rcases hwho with ⟨hrun, -⟩ | ⟨hmoves, -⟩
          · exact absurd hrun ha
          · exact hmoves.elim
        | _ => exact hb.elim
      · refine hidle ?_ (absurd · ha) (.refl hb)
        rw [hset, List.getElem?_set_ne hij]
        exact hc

/-! ### The whole course -/

/-- How far a backfill has come that was made and has gone on in the course of the actions: it has
delivered to the subscribers `visits`, one after the other. -/
structure Tour (r : Registry) (i : Nat) (b : Batch Nat) (actions : List Action) (c : Call)
    (visits : List SessionId) : Prop where
  milestones : (told i r actions).filterMap Event.milestone? =
    visits.flatMap (fun s => [.begins s, .ends s]) ++ c.serving.map .begins
  hands : ∀ e ∈ told i r actions, ∃ w, w <+: actions ∧ e.Hands (r.run w) b
  inOrder : (visits ++ c.serving ++ c.ahead).Sublist r.members
  covers : ∀ s ∈ r.members, s ∈ visits ++ c.serving ++ c.ahead ∨ r.PassesOver i actions s
  counted : c.counted = visits.length

variable {visits visits' : List SessionId}

/-- A move takes a tour further: whoever it leaves behind is passed over. -/
theorem Tour.extend (h : Tour r i b actions c visits) (hc : (r.run actions).calls[i]? = some c)
    (hc' : (r.run (actions ++ [action])).calls[i]? = some c')
    (hhands : ∀ e ∈ (r.run actions).tellsBy i action, e.Hands (r.run actions) b)
    (hms : visits.flatMap (fun s => [.begins s, .ends s]) ++ c.serving.map .begins ++
        ((r.run actions).tellsBy i action).filterMap Event.milestone? =
      visits'.flatMap (fun s => [.begins s, .ends s]) ++ c'.serving.map .begins)
    (hsub : (visits' ++ c'.serving ++ c'.ahead).Sublist (visits ++ c.serving ++ c.ahead))
    (hleft : ∀ s ∈ visits ++ c.serving ++ c.ahead, s ∈ visits' ++ c'.serving ++ c'.ahead ∨
      s ∈ c.ahead ∧ ((r.run (actions ++ [action])).isGone s = true ∨
        s ∈ c.upcoming ∧ (r.run (actions ++ [action])).isCancelled s = true))
    (hn : c'.counted = visits'.length) : Tour r i b (actions ++ [action]) c' visits' where
  milestones := by
    rw [told_concat, List.filterMap_append, h.milestones, hms]
  hands e he := by
    rw [told_concat] at he
    rcases List.mem_append.mp he with he | he
    · obtain ⟨w, hw, hhand⟩ := h.hands e he
      exact ⟨w, hw.trans (List.prefix_append _ _), hhand⟩
    · exact ⟨actions, List.prefix_append _ _, hhands e he⟩
  inOrder := hsub.trans h.inOrder
  covers s hs := by
    rcases h.covers s hs with hmem | hpassed
    · by_cases hstill : s ∈ visits' ++ c'.serving ++ c'.ahead
      · exact .inl hstill
      · obtain ⟨hahead, hwhy⟩ := (hleft s hmem).resolve_left hstill
        refine .inr ⟨actions, action, List.prefix_refl _, ?_, ?_, ?_⟩
        · rw [ahead_of_call hc]
          exact hahead
        · rw [ahead_of_call hc']
          exact fun hmem' => hstill (List.mem_append_right _ hmem')
        · rw [upcoming_of_call hc]
          exact hwhy
    · exact .inr (hpassed.mono action)
  counted := hn

/-- Nobody is left behind where a backfill stays with its subscriber. -/
theorem Tour.keep (h : Tour r i b actions c visits) (hc : (r.run actions).calls[i]? = some c)
    (hc' : (r.run (actions ++ [action])).calls[i]? = some c')
    (hhands : ∀ e ∈ (r.run actions).tellsBy i action, e.Hands (r.run actions) b)
    (hms : c.serving.map .begins ++
        ((r.run actions).tellsBy i action).filterMap Event.milestone? = c'.serving.map .begins)
    (hsame : c'.serving ++ c'.ahead = c.serving ++ c.ahead) (hn : c'.counted = c.counted) :
    Tour r i b (actions ++ [action]) c' visits := by
  have hlist : visits ++ c'.serving ++ c'.ahead = visits ++ c.serving ++ c.ahead := by
    rw [List.append_assoc, hsame, ← List.append_assoc]
  refine h.extend hc hc' hhands ?_ ?_ ?_ (hn.trans h.counted)
  · rw [List.append_assoc, hms]
  · rw [hlist]
  · rw [hlist]
    exact fun s hs => .inl hs

/-- A backfill is done with a subscriber and goes on to the next one: those in between are passed
over, and so is the subscriber itself if it is among `dropped`. -/
theorem Tour.next (h : Tour r i b actions c visits) (hc : (r.run actions).calls[i]? = some c)
    (hc' : (r.run (actions ++ [action])).calls[i]? = some c')
    (hhands : ∀ e ∈ (r.run actions).tellsBy i action, e.Hands (r.run actions) b)
    (hms : visits.flatMap (fun s => [.begins s, .ends s]) ++ c.serving.map .begins ++
        ((r.run actions).tellsBy i action).filterMap Event.milestone? =
      visits'.flatMap (fun s => [.begins s, .ends s]))
    (hnext : MovesOn (r.run (actions ++ [action])) b c.upcoming visits'.length c')
    (dropped : List SessionId)
    (hlist : visits ++ c.serving ++ c.ahead = visits' ++ (dropped ++ c.upcoming))
    (hdropped : ∀ t ∈ dropped, t ∈ c.ahead ∧ (r.run (actions ++ [action])).isGone t = true) :
    Tour r i b (actions ++ [action]) c' visits' := by
  obtain ⟨left, hover, hpassed⟩ := hnext.ahead
  refine h.extend hc hc' hhands ?_ ?_ ?_ hnext.counted
  · rw [hms, hnext.serving, List.map_nil, List.append_nil]
  · rw [hlist, hnext.serving, List.append_nil, hover]
    exact ((List.sublist_append_right _ _).trans (List.sublist_append_right _ _)).append_left _
  · rw [hlist, hnext.serving, List.append_nil]
    intro t ht
    rcases List.mem_append.mp ht with hvisited | ht
    · exact .inl (List.mem_append_left _ hvisited)
    rcases List.mem_append.mp ht with hdrop | hup
    · exact .inr ((hdropped t hdrop).imp_right .inl)
    · have hahead : t ∈ c.ahead := List.mem_append_right _ hup
      rw [hover] at hup
      rcases List.mem_append.mp hup with hleft | hstill
      · exact .inr ⟨hahead, (hpassed t hleft).imp_right (⟨hover ▸ hup, ·⟩)⟩
      · exact .inl (List.mem_append_right _ hstill)

theorem Tour.move (h : Tour r i b actions c visits) (hc : (r.run actions).calls[i]? = some c)
    (hc' : (r.run (actions ++ [action])).calls[i]? = some c')
    (hms : ((r.run actions).tellsBy i action).filterMap Event.milestone? = ms)
    (hhands : ∀ e ∈ (r.run actions).tellsBy i action, e.Hands (r.run actions) b)
    (hmove : BackfillMove (r.run (actions ++ [action])) b c c' ms) :
    ∃ visits', Tour r i b (actions ++ [action]) c' visits' := by
  cases hmove with
  | stays hb hgate hserving hup hn =>
    refine ⟨visits, h.keep hc hc' hhands ?_ ?_ hn⟩
    · rw [hms, hserving, List.append_nil]
    · rw [hserving, Call.ahead, Call.ahead, hgate, hup]
  | begins hb hgate hserving hgate' hserving' hup hn =>
    refine ⟨visits, h.keep hc hc' hhands ?_ ?_ hn⟩
    · rw [hms, hserving, hserving']
      rfl
    · rw [hserving, hserving', Call.ahead, Call.ahead, hgate, hgate', hup]
      rfl
  | @shutOut s hgate hserving hgone hnext =>
    rw [h.counted] at hnext
    refine ⟨visits, h.next hc hc' hhands ?_ hnext [s] ?_ ?_⟩
    · rw [hms, hserving, List.map_nil, List.append_nil, List.append_nil]
    · rw [hserving, List.append_nil, Call.ahead, hgate]
    · intro t ht
      obtain rfl := List.mem_singleton.mp ht
      refine ⟨List.mem_append_left _ ?_, hgone⟩
      rw [hgate]
      exact ht
  | @skips s hgate hserving hnext =>
    rw [h.counted] at hnext
    refine ⟨visits ++ [s], h.next hc hc' hhands ?_ (by simpa using hnext) [] ?_ nofun⟩
    · simp [hms, hserving]
    · simp [hserving, Call.ahead, hgate]
  | @ends s hgate hserving hnext =>
    rw [h.counted] at hnext
    refine ⟨visits ++ [s], h.next hc hc' hhands ?_ (by simpa using hnext) [] ?_ nofun⟩
    · simp [hms, hserving]
    · simp [hserving, Call.ahead, hgate]

/-- A backfill that has just been made has delivered to nobody, and stands before the first who is
not cancelled. -/
theorem tour_made (hr : Settled T r) (b : Batch Nat) :
    ∃ c, (r.publishHistorical b).calls[r.calls.length]? = some c ∧ c.Backfills b ∧
      Tour r r.calls.length b [.publishHistorical b] c [] := by
  have hadded : Settled T (r.addCall .crashed) :=
    (reaches_addCall (c := .crashed) hr rfl trivial rfl).settled
  have hlt : r.calls.length < (r.addCall .crashed).calls.length := by
    simp [addCall]
  have hknown : ∀ t ∈ r.members, ∃ x, r.session? t = some x := by
    intro t ht
    obtain ⟨x, hx, -⟩ := (hr.sound.mem_iff t).mp ht
    exact ⟨x, hx⟩
  have hnew : r.calls[r.calls.length]? = none := List.getElem?_eq_none_iff.mpr (Nat.le_refl _)
  obtain ⟨hhistory, c, hc, hmoves⟩ := settles_nextBackfill (b := b)
    (v := r.publishHistorical b) hadded.sound 0 hknown hlt rfl
  have htold : told r.calls.length r [.publishHistorical b] = [] := by
    have hnews : r.news (r.publishHistorical b) = [] := @news_of_append _ _ [] hhistory
    rw [told, told, List.append_nil, tellsBy, apply, hnews, ite_self]
  obtain ⟨left, hmembers, hover⟩ := hmoves.ahead
  refine ⟨c, hc, hmoves.backfills, ?_, ?_, ?_, ?_, hmoves.counted⟩
  · rw [htold, hmoves.serving]
    rfl
  · rw [htold]
    exact List.forall_mem_nil _
  · rw [hmoves.serving, hmembers]
    exact List.sublist_append_right _ _
  · intro t ht
    rw [hmoves.serving]
    by_cases hahead : t ∈ c.ahead
    · exact .inl hahead
    · have hleft : t ∈ left := by
        rw [hmembers] at ht
        exact (List.mem_append.mp ht).resolve_right hahead
      refine .inr ⟨[], .publishHistorical b, List.prefix_refl _, ?_, ?_, ?_⟩
      · show t ∈ r.ahead r.calls.length
        rw [ahead, hnew]
        exact ht
      · show t ∉ (r.publishHistorical b).ahead r.calls.length
        rw [ahead_of_call hc]
        exact hahead
      · refine (hover t hleft).imp_right fun hcancelled => ⟨?_, hcancelled⟩
        show t ∈ r.upcoming r.calls.length
        rw [upcoming, hnew]
        exact ht

/-- In every run a backfill is on its tour, as long as it does not crash. -/
theorem tour_run {config : Config} {hooks : Hooks} (hr : Settled (.any config hooks True) r)
    (b : Batch Nat) (after : List Action) :
    ∃ c, (r.run (.publishHistorical b :: after)).calls[r.calls.length]? = some c ∧
      c.Backfills b ∧ (c = .crashed ∨
        ∃ visits, Tour r r.calls.length b (.publishHistorical b :: after) c visits) := by
  -- from the last action back: the tour goes a move further, or the call is over
  induction after using List.reverseRecOn with
  | nil =>
    obtain ⟨c, hc, hb, htour⟩ := tour_made hr b
    exact ⟨c, hc, hb, .inr ⟨[], htour⟩⟩
  | append_singleton after a ih =>
    obtain ⟨c, hc, hb, hwhere⟩ := ih
    have hbefore := (reaches_any_run hr (.publishHistorical b :: after)).settled
    have hrun : r.run (.publishHistorical b :: (after ++ [a])) =
        (r.run (.publishHistorical b :: after)).apply a :=
      run_append r (.publishHistorical b :: after) [a]
    rw [← List.cons_append] at hrun ⊢
    rcases hwhere with rfl | ⟨visits, htour⟩
    · refine ⟨.crashed, ?_, trivial, .inl rfl⟩
      rw [hrun]
      exact over_apply hbefore hc rfl a
    · have hknown : ∀ t ∈ c.upcoming,
          ∃ x, (r.run (.publishHistorical b :: after)).session? t = some x := by
        intro t ht
        have hmem : t ∈ r.members := htour.inOrder.subset
          (List.mem_append_right _ (List.mem_append_right _ ht))
        obtain ⟨x, hx, -⟩ := (hr.sound.mem_iff t).mp hmem
        obtain ⟨y, hy, -⟩ := (handsOver_run hr (.publishHistorical b :: after)).grows.session t x hx
        exact ⟨y, hy⟩
      rcases backfillMove_apply hbefore hc hb hknown a with
        hcrashed | ⟨c', ms, hc', hms, hhands, hmove⟩
      · exact ⟨.crashed, hrun ▸ hcrashed, trivial, .inl rfl⟩
      · rw [← hrun] at hc' hmove
        exact ⟨c', hc', hmove.backfills, .inr (htour.move hc hc' hms hhands hmove)⟩

/-- A backfill covers all who are registered when it is made, in the order of registration. In every
run, unless the call has crashed, what it has told is this: deliveries of the batch to subscribers
that were registered then, each at most once, each begun after the one before had ended. Whoever was
registered then has had a delivery, has one under way, is still to come, or was passed over because
it was removed before the call had its gate, or was cancelled when its turn came. When the call has
returned, nobody is still to come. -/
theorem backfill_covers_members (config : Config) (hooks : Hooks) (before : List Action)
    (b : Batch Nat) (after : List Action) :
    let r := (new config hooks).run before
    let i := r.calls.length
    let actions := .publishHistorical b :: after
    r.members.Pairwise (· < ·) ∧
      ∃ c, (r.run actions).calls[i]? = some c ∧ c.Backfills b ∧
        (c.isOver = true → c.serving = [] ∧ c.ahead = []) ∧
        (c = .crashed ∨ ∃ visits,
          (told i r actions).filterMap Event.milestone? =
            visits.flatMap (fun s => [.begins s, .ends s]) ++ c.serving.map .begins ∧
          (∀ e ∈ told i r actions, ∃ w, w <+: actions ∧ e.Hands (r.run w) b) ∧
          (visits ++ c.serving ++ c.ahead).Sublist r.members ∧
          (∀ s, .begins s ∈ (told i r actions).filterMap Event.milestone? → s ∈ r.members) ∧
          ∀ s ∈ r.members, s ∈ visits ++ c.serving ++ c.ahead ∨ r.PassesOver i actions s) := by
  intro r i actions
  obtain ⟨c, hc, hb, hwhere⟩ := tour_run (settled_any_run config hooks before) b after
  refine ⟨members_increasing config hooks before, c, hc, hb, ?_, hwhere.imp_right ?_⟩
  · intro hover
    cases c with
    | returned | crashed => exact ⟨rfl, rfl⟩
    | _ => cases hover
  · rintro ⟨visits, htour⟩
    refine ⟨visits, htour.milestones, htour.hands, htour.inOrder, ?_, htour.covers⟩
    intro s hs
    rw [htour.milestones] at hs
    apply htour.inOrder.subset
    have hmem : s ∈ visits ∨ s ∈ c.serving := by simpa using hs
    rcases hmem with hvisited | hserving
    · exact List.mem_append_left _ (List.mem_append_left _ hvisited)
    · exact List.mem_append_left _ (List.mem_append_right _ hserving)

end Registry

/-- Whether an event tells that a write begins. -/
def Event.isAttempt : Event → Bool
  | .writeBegun .. => true
  | _ => false

/-- Whether an event tells that a batch is skipped as stale. -/
def Event.isSkip : Event → Bool
  | .staleSkipped .. => true
  | _ => false

def Milestone.isBegin : Milestone → Bool
  | .begins _ => true
  | .ends _ => false

/-- A delivery begins with a write or by skipping its batch. -/
theorem countP_isBegin (es : List Event) :
    (es.filterMap Event.milestone?).countP Milestone.isBegin =
      es.countP Event.isAttempt + es.countP Event.isSkip := by
  rw [List.countP_filterMap]
  induction es with
  | nil => rfl
  | cons e rest ih =>
    have hone : (if ((e.milestone?.map Milestone.isBegin).getD false) = true then 1 else 0) =
        (if e.isAttempt = true then 1 else 0) + if e.isSkip = true then 1 else 0 := by
      cases e <;> rfl
    simp only [List.countP_cons, ih]
    omega

namespace Registry

/-- What a backfill returns. In every run the number is that of the writes that the call has begun,
whether or not they succeeded, together with the deliveries that it has skipped as stale. -/
theorem backfill_counts_deliveries (config : Config) (hooks : Hooks) (before : List Action)
    (b : Batch Nat) (after : List Action) {n : Nat}
    (hreturned : let r := (new config hooks).run before
      (r.run (.publishHistorical b :: after)).calls[r.calls.length]? = some (returnedCount n)) :
    let r := (new config hooks).run before
    let events := told r.calls.length r (.publishHistorical b :: after)
    n = events.countP Event.isAttempt + events.countP Event.isSkip := by
  intro r events
  obtain ⟨c, hc, -, hwhere⟩ := tour_run (settled_any_run config hooks before) b after
  obtain rfl := Option.some.inj (hreturned.symm.trans hc)
  obtain ⟨visits, htour⟩ := hwhere.resolve_left Call.noConfusion
  have hcounted : n = visits.length := htour.counted
  have hbegins : (visits.flatMap fun s => [Milestone.begins s, .ends s]).countP Milestone.isBegin =
      visits.length := by
    clear htour hcounted
    induction visits with
    | nil => rfl
    | cons s rest ih =>
      rw [List.flatMap_cons, List.countP_append, ih, List.length_cons, Nat.add_comm]
      rfl
  rw [← countP_isBegin, htour.milestones, hcounted]
  simpa [Call.serving, returnedCount] using hbegins.symm

/-- A backfill that writes to one subscriber and finds its batch stale for another. -/
theorem backfill_counts_deliveries_of_two :
    let before := [.subscribe {}, .run (.call 1), .subscribe {}, .run (.call 2),
      .sendHistorical 0 ⟨[⟨5, ""⟩]⟩, .run (.call 3), .run (.call 3)]
    let r := (new {} {}).run before
    let after := [.run (.call 4), .run (.call 4), .run (.call 4)]
    let events := told 4 r (.publishHistorical ⟨[⟨3, ""⟩]⟩ :: after)
    (r.run (.publishHistorical ⟨[⟨3, ""⟩]⟩ :: after)).calls[4]? = some (returnedCount 2) ∧
      2 = events.countP Event.isAttempt + events.countP Event.isSkip := by
  intro before r after events
  have hreturned : (r.run (.publishHistorical ⟨[⟨3, ""⟩]⟩ :: after)).calls[4]? =
      some (returnedCount 2) := by rfl
  exact ⟨hreturned, backfill_counts_deliveries {} {} before ⟨[⟨3, ""⟩]⟩ after hreturned⟩

/-- A backfill returns that there was one write although it has begun none: the only subscriber has
had a later item already. -/
theorem backfill_counts_stale_batch :
    let r := (new {} {}).run [.subscribe {}, .run (.call 1), .sendHistorical 0 ⟨[⟨5, ""⟩]⟩,
      .run (.call 2), .run (.call 2)]
    let actions := [.publishHistorical ⟨[⟨3, ""⟩]⟩, .run (.call 3)]
    (r.run actions).calls[3]? = some (returnedCount 1) ∧
      (told 3 r actions).countP Event.isAttempt = 0 :=
  ⟨rfl, by decide +kernel⟩

end Registry

end Multicast
