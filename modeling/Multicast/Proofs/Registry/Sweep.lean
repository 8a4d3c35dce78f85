import Multicast.Proofs.Registry.Loops
import Multicast.Proofs.Traffic.Backfills
import Multicast.Proofs.Traffic.Cancelled

/-! Single sweeps. A sweep begins with those whom it finds cancelled and goes on from one to the
next, while other things happen in between. It comes past subscribers that are removed, whoever has
removed them, and counts its own. -/

namespace Multicast

/-- Whether the callbacks after removals all come to a result, however late. -/
def Hooks.Calm (hooks : Hooks) : Prop := ∀ x, (hooks.after x).outcome? ≠ none

namespace Progress

variable {σ α : Type}

/-- Where a task waits that is under way. -/
def underWay? : Progress σ α → Option σ
  | running st => some st
  | _ => none

/-- What a task has come to. -/
def result? : Progress σ α → Option α
  | done a => some a
  | _ => none

/-- Whom a sweep has still before it. -/
def left : Progress SweepPass Nat → List SessionId
  | running p => p.rest
  | _ => []

end Progress

/-- The sweep that is under way in a call. -/
def Call.sweep? : Call → Option SweepPass
  | .sweeping p => some p
  | .sweepLoop l => l.pass
  | _ => none

namespace Registry

/-- Where a call stands that sweeps once. -/
def sweepCall : Progress SweepPass Nat → Call
  | .running p => .sweeping p
  | .done n => returnedCount n
  | .crashed => .crashed

/-- The sweep that is under way in the call or loop with the number `i`. -/
def sweep? (r : Registry) (i : Nat) : Option SweepPass := (r.calls[i]?).bind Call.sweep?

/-- How far the sweep comes at once that an action begins in the call or loop with the number `i`,
if it begins one. -/
def sweepBegun? (r : Registry) (i : Nat) (action : Action) : Option (Progress SweepPass Nat) :=
  match r.calls[i]?, action with
  | none, .sweep => if r.calls.length = i then some (r.addCall .crashed).beginSweep.2 else none
  | some (.sweepLoop _), _ => if r.beginsPass i action then some r.beginSweep.2 else none
  | _, _ => none

/-- How far the sweep comes that is under way in the call or loop with the number `i`, if the action
lets it go on. -/
def sweepContinued? (r : Registry) (i : Nat) (action : Action) : Option (Progress SweepPass Nat) :=
  match r.sweep? i, action with
  | some p, .run (.call j) =>
    if j == i && p.hook.ready r.now then some (r.sweepStep p).2 else none
  | _, _ => none

/-- A sweep that had counted `n` has come over the subscribers `ss` to the point `o`, and has
removed `gone`: those whom it is past are removed, and it has counted its own. -/
structure Covers (v : Registry) (ss : List SessionId) (n : Nat) (gone : List SessionId)
    (o : Progress SweepPass Nat) : Prop where
  past : ∃ passed, ss = passed ++ o.left ∧ gone.Sublist passed ∧ ∀ s ∈ passed, v.isGone s = true
  counted : o.swept? = some (n + gone.length)
  /-- The callback at which it waits comes to a result. -/
  calm : ∀ p, o.underWay? = some p → p.hook.plan.outcome? ≠ none

/-- What becomes of the sweeps of the call or loop with the number `i` in one action: one begins,
the one under way goes on, or nothing happens to them and nobody departs by them. -/
inductive SweepTurn (r : Registry) (i : Nat) (action : Action) : Prop
  | begins {o : Progress SweepPass Nat} (begun : r.sweepBegun? i action = some o)
      (idle : r.sweep? i = none) (now : (r.apply action).sweep? i = o.underWay?)
      (who : r.calls.length = i ∧ (r.apply action).calls[i]? = some (sweepCall o) ∨
        ∃ l, r.calls[i]? = some (.sweepLoop l))
      (cause : r.cause? action = some (.sweep i))
      (covers : Covers (r.apply action) (r.members.filter r.isCancelled) 0
        (leavers r (r.apply action)) o)
  | goesOn {p : SweepPass} {o : Progress SweepPass Nat} (begun : r.sweepBegun? i action = none)
      (moved : r.sweepContinued? i action = some o) (was : r.sweep? i = some p)
      (now : (r.apply action).sweep? i = o.underWay?)
      (single : r.calls[i]? = some (.sweeping p) → (r.apply action).calls[i]? = some (sweepCall o))
      (cause : r.cause? action = some (.sweep i))
      (covers : Covers (r.apply action) p.rest p.count (leavers r (r.apply action)) o)
  | rests (begun : r.sweepBegun? i action = none) (moved : r.sweepContinued? i action = none)
      (now : (r.apply action).sweep? i = r.sweep? i)
      (aside : ∀ d ∈ r.departuresAt action, d.cause ≠ .sweep i)

variable {T : Terms} {r u v : Registry} {i n m : Nat} {c c' : Call} {p : SweepPass}
  {o o' : Progress SweepPass Nat} {action : Action} {ss gone gone' called : List SessionId}
  {q : Option RemovalReason}

/-! ### One sweep -/

namespace Covers

/-- Who is removed stays so. -/
theorem mono (h : Covers r ss n gone o) (hg : ∀ s, r.isGone s = true → v.isGone s = true) :
    Covers v ss n gone o := by
  obtain ⟨passed, hss, hsub, hpassed⟩ := h.past
  exact ⟨⟨passed, hss, hsub, fun s hs => hg s (hpassed s hs)⟩, h.counted, h.calm⟩

/-- A sweep that is under way goes on with those whom it has before it. -/
theorem trans (h : Covers r ss n gone (.running p))
    (hg : ∀ s, r.isGone s = true → v.isGone s = true) (h' : Covers v p.rest p.count gone' o) :
    Covers v ss n (gone ++ gone') o := by
  obtain ⟨passed, hss, hsub, hpassed⟩ := h.past
  obtain ⟨passed', hrest, hsub', hpassed'⟩ := h'.past
  have hcount : p.count = n + gone.length := Option.some.inj h.counted
  refine ⟨⟨passed ++ passed', ?_, hsub.append hsub', ?_⟩, ?_, h'.calm⟩
  · calc ss = passed ++ p.rest := hss
      _ = passed ++ (passed' ++ o.left) := congrArg (passed ++ ·) hrest
      _ = passed ++ passed' ++ o.left := (List.append_assoc ..).symm
  · intro s hs
    rcases List.mem_append.mp hs with hs | hs
    · exact hg s (hpassed s hs)
    · exact hpassed' s hs
  · rw [h'.counted, hcount, List.length_append, Nat.add_assoc]

/-- A sweep that is over has come past everybody, and its result is the number of those whom it has
removed. -/
theorem of_ended (h : Covers r ss 0 gone o) (hover : o.underWay? = none) :
    o = .done gone.length ∧ ∀ s ∈ ss, r.isGone s = true := by
  obtain ⟨passed, hss, -, hpassed⟩ := h.past
  have hcounted := h.counted
  rw [Nat.zero_add] at hcounted
  cases o with
  | running p => cases hover
  | done k =>
    obtain rfl : passed = ss := (hss.trans (List.append_nil passed)).symm
    exact ⟨congrArg Progress.done (Option.some.inj hcounted), hpassed⟩
  | crashed => cases hcounted

theorem removed_sublist (h : Covers r ss n gone o) : gone.Sublist ss := by
  obtain ⟨passed, hss, hsub, -⟩ := h.past
  exact hss ▸ hsub.trans (List.sublist_append_left passed o.left)

end Covers

/-- The callback after a removal is the one that the registry was given. -/
theorem plan_callAfter {s : SessionId} (hs : ∃ x, r.session? s = some x)
    (hcalm : r.hooks.Calm) :
    (r.callAfter s).2.plan.outcome? ≠ none := by
  obtain ⟨x, hx⟩ := hs
  simp only [callAfter, hx]
  exact hcalm x

/-- A sweep goes on to the first whom it can still remove. -/
theorem covers_nextSweep (hcalm : r.hooks.Calm) (n : Nat)
    (hss : ∀ s ∈ ss, ∃ x, r.session? s = some x) :
    ∃ gone, gone.length ≤ 1 ∧ Effect (some .cancelled) gone gone r (r.nextSweep n ss).1 ∧
      Covers (r.nextSweep n ss).1 ss n gone (r.nextSweep n ss).2 := by
  induction ss with
  | nil =>
    refine ⟨[], Nat.zero_le 1, ?_, ⟨⟨[], rfl, List.Sublist.refl [], nofun⟩, rfl, nofun⟩⟩
    rw [nextSweep]
    split
    · exact (Effect.refl r).note rfl rfl
    · exact .refl r
  | cons s rest ih =>
    rw [nextSweep]
    rcases r.present_or_gone s with ⟨x, hx, hstage⟩ | hgone
    · obtain ⟨es, -, hdetach⟩ := detach_eq hx hstage .cancelled
      have heffect := Effect.detach_callAfter hx hstage .cancelled
      have hthere : ∃ y, (r.detach s .cancelled).1.session? s = some y := by
        obtain ⟨y, hy, -⟩ := isGone_iff.mp ((heffect.gone_iff s).mpr (.inr List.mem_cons_self))
        exact ⟨y, session?_callAfter.symm.trans hy⟩
      have hhooks : (r.detach s .cancelled).1.hooks = r.hooks := by rw [hdetach]; rfl
      have hplan := plan_callAfter hthere (hhooks ▸ hcalm)
      have hpair : r.detach s .cancelled = ((r.detach s .cancelled).1, true) := by rw [hdetach]
      rw [hpair]
      refine ⟨[s], Nat.le_refl 1, heffect, ⟨[s], rfl, List.Sublist.refl [s], ?_⟩, rfl, ?_⟩
      · intro t ht
        exact (heffect.gone_iff t).mpr (.inr ht)
      · rintro p hp
        obtain rfl := Option.some.inj hp
        exact hplan
    · -- it was removed meanwhile
      have hsame := detach_of_removed hgone .cancelled
      rw [hsame]
      obtain ⟨x, hx⟩ := hss s List.mem_cons_self
      obtain ⟨gone, hle, heffect, hcovers⟩ := ih fun t ht => hss t (List.mem_cons_of_mem s ht)
      obtain ⟨passed, hrest, hsub, hpassed⟩ := hcovers.past
      refine ⟨gone, hle, heffect, ⟨s :: passed, congrArg (s :: ·) hrest, hsub.cons s, ?_⟩,
        hcovers.counted, hcovers.calm⟩
      have hthen := (heffect.gone_iff s).mpr (.inl (isGone_iff.mpr ⟨x, hx, hgone x hx⟩))
      exact List.forall_mem_cons.mpr ⟨hthen, hpassed⟩

/-- A sweep waits on for its callback, or goes on to the next subscriber. -/
theorem covers_sweepStep (hcalm : r.hooks.Calm)
    (hp : p.hook.plan.outcome? ≠ none) (hrest : ∀ s ∈ p.rest, ∃ x, r.session? s = some x) :
    ∃ gone, gone.length ≤ 1 ∧ Effect (some .cancelled) gone gone r (r.sweepStep p).1 ∧
      Covers (r.sweepStep p).1 p.rest p.count gone (r.sweepStep p).2 := by
  have hreturns {result : Except HookError Unit} (hstep : p.hook.step r.now = .done result) :
      ∃ gone, gone.length ≤ 1 ∧ Effect (some .cancelled) gone gone r (r.sweepStep p).1 ∧
        Covers (r.sweepStep p).1 p.rest p.count gone (r.sweepStep p).2 := by
    have hnoted := effect_noteReturn (q := some .cancelled) (r := r) (s := p.session)
      .hookFailed (fun _ _ => ⟨rfl, rfl⟩) result
    have hhooks : (r.noteReturn p.session .hookFailed result).hooks = r.hooks := by
      cases result <;> rfl
    obtain ⟨gone, hle, heffect, hcovers⟩ := covers_nextSweep
      (r := r.noteReturn p.session .hookFailed result) (hhooks ▸ hcalm) p.count
      fun s hs => by rw [session?_noteReturn]; exact hrest s hs
    simp only [sweepStep, hstep]
    exact ⟨gone, hle, hnoted.quiet_trans heffect, hcovers⟩
  -- a callback that has come back lets the sweep go on; one that sleeps keeps it where it is
  cases hplan : p.hook.plan with
  | succeed => exact hreturns (by rw [HookRun.step, hplan])
  | fail e => exact hreturns (by rw [HookRun.step, hplan])
  | crash =>
    rw [hplan] at hp
    exact absurd rfl hp
  | delay ms next =>
    have hstep : p.hook.step r.now = .running ⟨r.now + ms, next⟩ := by rw [HookRun.step, hplan]
    simp only [sweepStep, hstep]
    refine ⟨[], Nat.zero_le 1, .refl r, ⟨⟨[], rfl, List.Sublist.refl [], nofun⟩, rfl, ?_⟩⟩
    rintro p' hp'
    obtain rfl := Option.some.inj hp'
    rw [hplan] at hp
    exact hp

/-! ### One action -/

theorem sweep?_of_call (hc : r.calls[i]? = some c) : r.sweep? i = c.sweep? := by
  rw [sweep?, hc, Option.bind_some]

theorem sweep?_setCall (hi : i < r.calls.length) (c : Call) : (r.setCall i c).sweep? i = c.sweep? :=
  sweep?_of_call (List.getElem?_set_self hi)

theorem sweep?_sweepCall (o : Progress SweepPass Nat) : (sweepCall o).sweep? = o.underWay? := by
  cases o with
  | running | done | crashed => rfl

theorem settleCall_sweep (i : Nat) (w : Registry × Progress SweepPass Nat) :
    settleCall i .sweeping returnedCount w = w.1.setCall i (sweepCall w.2) := by
  obtain ⟨w, o⟩ := w
  cases o with
  | running | done | crashed => rfl

theorem sweep?_sweepLoopProgress (l : Loop SweepPass) {w : Registry × Progress SweepPass Nat}
    (hi : i < w.1.calls.length) : (sweepLoopProgress i l w).sweep? i = w.2.underWay? := by
  obtain ⟨w, o⟩ := w
  cases o with
  | running | done | crashed => exact sweep?_setCall hi _

/-- Where the loop stands has nothing to do with who is removed. -/
theorem isGone_sweepLoopProgress (i : Nat) (l : Loop SweepPass)
    (w : Registry × Progress SweepPass Nat) (s : SessionId) :
    (sweepLoopProgress i l w).isGone s = w.1.isGone s := by
  obtain ⟨w, o⟩ := w
  cases o with
  | running | done | crashed => rfl

/-- Those who leave in a step that removes one at most. -/
theorem leavers_eq (hle : gone.length ≤ 1) (h : Effect q gone called r u)
    (hsame : ∀ s, v.isGone s = u.isGone s) : leavers r v = gone := by
  have hperm : (leavers r v).Perm gone :=
    leavers_perm (fun s => hsame s ▸ h.gone_iff s) h.fresh h.nodup
  match gone, hle with
  | [], _ => exact hperm.eq_nil
  | [s], _ => exact List.perm_singleton.mp hperm

theorem covers_beginSweep (hcalm : r.hooks.Calm) :
    ∃ gone, gone.length ≤ 1 ∧ Effect (some .cancelled) gone gone r r.beginSweep.1 ∧
      Covers r.beginSweep.1 (r.members.filter r.isCancelled) 0 gone r.beginSweep.2 :=
  covers_nextSweep hcalm 0 fun _ hs => exists_of_isCancelled (List.mem_filter.mp hs).2

theorem sweepTurn_sweep (hcalm : r.hooks.Calm) :
    SweepTurn r r.calls.length .sweep := by
  have hnone : r.calls[r.calls.length]? = none := List.getElem?_eq_none (Nat.le_refl _)
  obtain ⟨gone, hle, heffect, hcovers⟩ := covers_beginSweep (r := r.addCall .crashed) hcalm
  have happly : r.apply .sweep = (r.addCall .crashed).beginSweep.1.setCall r.calls.length
      (sweepCall (r.addCall .crashed).beginSweep.2) := settleCall_sweep ..
  have hlt : r.calls.length < (r.addCall .crashed).beginSweep.1.calls.length := by
    rw [heffect.calls, addCall, List.length_append, List.length_singleton]
    exact Nat.lt_succ_self _
  have hstands : (r.apply .sweep).calls[r.calls.length]? =
      some (sweepCall (r.addCall .crashed).beginSweep.2) := by
    rw [happly]
    exact List.getElem?_set_self hlt
  have hgone : leavers r (r.apply .sweep) = gone := by
    rw [happly]
    exact leavers_eq (r := r.addCall .crashed) hle heffect fun _ => rfl
  refine .begins (o := (r.addCall .crashed).beginSweep.2) ?_ ?_ ?_ (.inl ⟨rfl, hstands⟩) rfl ?_
  · simp only [sweepBegun?, hnone, if_true]
  · rw [sweep?, hnone, Option.bind_none]
  · rw [sweep?_of_call hstands, sweep?_sweepCall]
  · rw [hgone, happly]
    exact hcovers.mono fun s hs => hs

theorem sweepTurn_beginsPass (hcalm : r.hooks.Calm)
    {l : Loop SweepPass} (hc : r.calls[i]? = some (.sweepLoop l))
    (hb : r.beginsPass i action = true) : SweepTurn r i action := by
  obtain ⟨hpass, happly⟩ : l.pass = none ∧ r.apply action = r.sweepTick i l := by
    rcases apply_of_beginsPass hb with ⟨l', hc', hpass, -, happly⟩ | ⟨l', hc', -, -, -⟩
    · obtain rfl := Call.sweepLoop.inj (Option.some.inj (hc'.symm.trans hc))
      exact ⟨hpass, happly⟩
    · cases hc'.symm.trans hc
  obtain ⟨gone, hle, heffect, hcovers⟩ := covers_beginSweep hcalm
  have hlt : i < r.beginSweep.1.calls.length := by
    rw [heffect.calls]
    exact (List.getElem?_eq_some_iff.mp hc).1
  have hsame (s : SessionId) : (r.apply action).isGone s = r.beginSweep.1.isGone s := by
    rw [happly]
    exact isGone_sweepLoopProgress i _ r.beginSweep s
  refine .begins (o := r.beginSweep.2) ?_ ?_ ?_ (.inr ⟨l, hc⟩) ?_ ?_
  · simp only [sweepBegun?, hc, hb, if_true]
  · rw [sweep?_of_call hc]
    exact hpass
  · rw [happly]
    exact sweep?_sweepLoopProgress _ hlt
  · rcases (beginsPass_iff.mp hb).2 with ⟨rfl, -⟩ | rfl
    · simp only [cause?, hc, Option.bind_some, Call.cause?]
    · simp only [cause?, hc, Option.bind_some, Call.cause?]
  · rw [leavers_eq hle heffect hsame]
    exact hcovers.mono fun s hs => (hsame s).trans hs

/-- A sweep that is under way goes on. -/
theorem sweepTurn_run (hcalm : r.hooks.Calm)
    (hc : r.calls[i]? = some c) (hunder : c.sweep? = some p)
    (hp : p.hook.plan.outcome? ≠ none) (hrest : ∀ s ∈ p.rest, ∃ x, r.session? s = some x)
    (hready : p.hook.ready r.now = true) : SweepTurn r i (.run (.call i)) := by
  have hlt : i < r.calls.length := (List.getElem?_eq_some_iff.mp hc).1
  have hwas : r.sweep? i = some p := (sweep?_of_call hc).trans hunder
  obtain ⟨gone, hle, heffect, hcovers⟩ := covers_sweepStep hcalm hp hrest
  have hmoved : r.sweepContinued? i (.run (.call i)) = some (r.sweepStep p).2 := by
    simp only [sweepContinued?, hwas, hready, beq_self_eq_true, Bool.and_true, if_true]
  have hlt' : i < (r.sweepStep p).1.calls.length := by rwa [heffect.calls]
  cases c with
  | sweeping p' =>
    obtain rfl := Option.some.inj hunder
    have happly : r.apply (.run (.call i)) =
        (r.sweepStep p').1.setCall i (sweepCall (r.sweepStep p').2) :=
      (apply_call hc hready).trans (settleCall_sweep ..)
    have hstands : (r.apply (.run (.call i))).calls[i]? = some (sweepCall (r.sweepStep p').2) := by
      rw [happly]
      exact List.getElem?_set_self hlt'
    have hgone : leavers r (r.apply (.run (.call i))) = gone := by
      rw [happly]
      exact leavers_eq hle heffect fun _ => rfl
    refine .goesOn (o := (r.sweepStep p').2) ?_ hmoved hwas ?_ (fun _ => hstands) ?_ ?_
    · simp only [sweepBegun?, hc]
    · rw [sweep?_of_call hstands, sweep?_sweepCall]
    · simp only [cause?, hc, Option.bind_some, Call.cause?]
    · rw [hgone, happly]
      exact hcovers.mono fun s hs => hs
  | sweepLoop l =>
    have hpass : l.pass = some p := hunder
    have happly : r.apply (.run (.call i)) = sweepLoopProgress i l (r.sweepStep p) := by
      have hready' : r.callReady i (.sweepLoop l) = true := by
        simp only [callReady, hpass, hready]
      rw [apply_call hc hready']
      simp only [callStep, sweepLoopStep, hpass]
    have hsame (s : SessionId) :
        (r.apply (.run (.call i))).isGone s = (r.sweepStep p).1.isGone s := by
      rw [happly]
      exact isGone_sweepLoopProgress i l (r.sweepStep p) s
    refine .goesOn (o := (r.sweepStep p).2) ?_ hmoved hwas ?_ ?_ ?_ ?_
    · have hbusy : r.beginsPass i (.run (.call i)) = false := by
        rw [← Bool.not_eq_true, beginsPass_iff, isDue_iff]
        rintro ⟨⟨t, ht, hidle, -⟩, -⟩
        obtain rfl : l.timer = t := Option.some.inj ((timer?_of_call hc).symm.trans ht)
        cases hpass.symm.trans (Loop.idle_iff.mp hidle)
      simp only [sweepBegun?, hc, hbusy, Bool.false_eq_true, if_false]
    · rw [happly]
      exact sweep?_sweepLoopProgress l hlt'
    · intro hc'
      cases hc.symm.trans hc'
    · simp only [cause?, hc, Option.bind_some, Call.cause?]
    · rw [leavers_eq hle heffect hsame]
      exact hcovers.mono fun s hs => (hsame s).trans hs
  | _ => cases hunder

/-- Nothing happens to the sweeps of a call when nothing happens at all. -/
theorem SweepTurn.of_idle (h : r.apply action = r) (hb : r.sweepBegun? i action = none)
    (hm : r.sweepContinued? i action = none) : SweepTurn r i action := by
  refine .rests hb hm (by rw [h]) ?_
  rw [departuresAt_of_idle h]
  exact nofun

/-- A call that does not sweep has no sweep under way, and never will. -/
theorem sweep?_of_leads (hc : c.cause? i ≠ some (.sweep i)) (h : c.Leads c') :
    c.sweep? = none ∧ c'.sweep? = none := by
  have hnone : c.purpose? ≠ some .sweep ∧ c.purpose? ≠ some .sweepLoop := by
    cases c with
    | sweeping | sweepLoop => exact absurd rfl hc
    | _ => exact ⟨nofun, nofun⟩
  have hserves {d : Call} (hd : c.Leads d) : d.sweep? = none := by
    cases d with
    | sweeping => exact absurd (hd _ rfl) hnone.1
    | sweepLoop => exact absurd (hd _ rfl) hnone.2
    | _ => rfl
  exact ⟨hserves (Call.Leads.refl c), hserves h⟩

/-- An action that removes nobody for a sweep of the call or loop leaves its sweeps alone. -/
theorem sweepTurn_of_aside (hr : Settled T r) (hcause : r.cause? action ≠ some (.sweep i))
    (hb : r.sweepBegun? i action = none) (hm : r.sweepContinued? i action = none) :
    SweepTurn r i action := by
  refine .rests hb hm ?_ fun d hd hsweep => hcause (hsweep ▸ (mem_departuresAt.mp hd).1)
  rcases calls_apply hr action with ⟨cs, hcs, hmade⟩ | ⟨j, c, c', hc, hset, hleads, hwho⟩
  · by_cases hi : i < r.calls.length
    · rw [sweep?, hcs, List.getElem?_append_left hi, sweep?]
    · rw [sweep?, hcs, List.getElem?_append_right (Nat.le_of_not_lt hi), sweep?,
        List.getElem?_eq_none (Nat.le_of_not_lt hi), Option.bind_none]
      apply Option.bind_eq_none_iff.mpr
      intro d hd
      have hserves := hmade d (List.mem_of_getElem? hd)
      cases d with
      | sweeping p =>
        -- such a call is made by a sweep alone, and would bear another number
        cases action with
        | sweep =>
          obtain ⟨d, hcalls⟩ := calls_sweep (r := r)
          obtain rfl : cs = [d] := List.append_cancel_left (hcs.symm.trans hcalls)
          have hlen : i - r.calls.length < 1 := (List.getElem?_eq_some_iff.mp hd).1
          obtain rfl : r.calls.length = i := by omega
          exact absurd rfl hcause
        | _ => exact (hserves _ rfl).elim
      | sweepLoop l =>
        cases action with
        | _ => exact (hserves _ rfl).elim
      | _ => rfl
  · -- only the call that has moved can have a sweep moved
    by_cases hij : j = i
    · subst hij
      have hlt : j < r.calls.length := (List.getElem?_eq_some_iff.mp hc).1
      have hnow : (r.apply action).sweep? j = c'.sweep? := by
        rw [sweep?, hset, List.getElem?_set_self hlt, Option.bind_some]
      have hother : c.cause? j ≠ some (.sweep j) := by
        rcases hwho with ⟨rfl, -⟩ | ⟨-, rfl | ⟨s, o, rfl, hrelease⟩⟩
        · simpa only [cause?, hc, Option.bind_some] using hcause
        · simpa only [cause?, hc, Option.bind_some] using hcause
        · -- no write of a sweep is held
          cases c with
          | sweeping | sweepLoop => cases hrelease
          | _ => exact fun hsweeps => by cases hsweeps
      obtain ⟨hwas, hthen⟩ := sweep?_of_leads hother hleads
      rw [hnow, hthen, sweep?_of_call hc, hwas]
    · rw [sweep?, hset, List.getElem?_set_ne hij, sweep?]

/-- A loop that is ready and begins no sweep was woken by the stop, and ends. -/
theorem sweepTurn_of_stopped {l : Loop SweepPass} (hc : r.calls[i]? = some (.sweepLoop l))
    (hidle : l.pass = none) (hready : r.callReady i (.sweepLoop l) = true)
    (hb : r.sweepBegun? i (.run (.call i)) = none)
    (hm : r.sweepContinued? i (.run (.call i)) = none) : SweepTurn r i (.run (.call i)) := by
  have hwaits : r.beginsPass i (.run (.call i)) = false := by
    simpa [sweepBegun?, hc] using hb
  have hdue : (r.stopped || decide (l.next ≤ r.nanos)) = true := by
    simpa only [callReady, hidle] using hready
  have hstopped : r.stopped = true :=
    stopped_of_not_beginsPass (timer?_of_call hc) (Loop.idle_iff.mpr hidle) hwaits hdue
  have happly : r.apply (.run (.call i)) =
      (r.note (.loopCancelled .sweep)).setCall i (.returned (.ok .nothing)) := by
    rw [apply_call hc hready]
    simp only [callStep, sweepLoopStep, hidle, hstopped, if_true]
  have hnoted : Effect none [] [] r (r.note (.loopCancelled .sweep)) :=
    (Effect.refl r).note rfl rfl
  have hnobody : leavers r (r.apply (.run (.call i))) = [] := by
    rw [happly]
    exact leavers_eq (Nat.zero_le 1) hnoted fun _ => rfl
  have hcause : r.cause? (.run (.call i)) = some (.sweep i) := by
    simp only [cause?, hc, Option.bind_some, Call.cause?]
  refine .rests hb hm ?_ ?_
  · have hlt : i < (r.note (.loopCancelled .sweep)).calls.length :=
      (List.getElem?_eq_some_iff.mp hc).1
    rw [happly, sweep?_setCall hlt, sweep?_of_call hc]
    exact hidle.symm
  · rw [departuresAt, hcause, hnobody]
    exact List.forall_mem_nil _

/-- A call or loop that sweeps and neither begins a sweep nor goes on with one has to wait, or is a
loop that ends. -/
theorem sweepTurn_of_waits (hcause : r.cause? action = some (.sweep i))
    (hb : r.sweepBegun? i action = none) (hm : r.sweepContinued? i action = none) :
    SweepTurn r i action := by
  have hunready {c : Call} {p : SweepPass} (hc : r.calls[i]? = some c) (hp : c.sweep? = some p)
      (hrun : action = .run (.call i)) : p.hook.ready r.now = false := by
    by_contra hready
    rw [Bool.not_eq_false] at hready
    subst hrun
    simp [sweepContinued?, sweep?_of_call hc, hp, hready] at hm
  rcases cause?_cases hcause with ⟨-, h⟩ | ⟨j, hj, hwho, h⟩ | ⟨-, h⟩ | ⟨rfl, h⟩ | ⟨-, h⟩ | ⟨-, h⟩
  · cases h
  · obtain rfl : i = j := by simpa using h
    have hc : r.calls[i]? = some r.calls[i] := List.getElem?_eq_getElem hj
    generalize r.calls[i] = c at hc
    have hsweeps : c.cause? i = some (.sweep i) := by
      rcases hwho with rfl | rfl
      · simpa only [cause?, hc, Option.bind_some] using hcause
      · simpa only [cause?, hc, Option.bind_some] using hcause
    cases c with
    | sweeping p =>
      refine .of_idle ?_ hb hm
      rcases hwho with rfl | rfl
      · exact apply_call_of_waiting hc (hunready hc rfl rfl)
      · simp only [apply, tick, hc]
    | sweepLoop l =>
      rcases hwho with rfl | rfl
      · cases hready : r.callReady i (.sweepLoop l) with
        | false => exact .of_idle (apply_call_of_waiting hc hready) hb hm
        | true =>
          have hidle : l.pass = none := by
            cases hpass : l.pass with
            | none => rfl
            | some p =>
              simp only [callReady, hpass, hunready hc hpass rfl] at hready
              cases hready
          exact sweepTurn_of_stopped hc hidle hready hb hm
      · have hwaits : r.beginsPass i (.tick i) = false := by
          simpa [sweepBegun?, hc] using hb
        exact .of_idle (tick_of_not_beginsPass hwaits) hb hm
    | _ => cases hsweeps
  · cases h
  · obtain rfl : i = r.calls.length := Cause.sweep.inj h
    simp [sweepBegun?] at hb
  · cases h
  · cases h

/-- Whatever happens, a sweep begins, goes on, or is left alone. -/
theorem sweepTurn_apply (hr : Settled T r) (hcalm : r.hooks.Calm)
    (hunder : ∀ p, r.sweep? i = some p → p.hook.plan.outcome? ≠ none ∧
      ∀ s ∈ p.rest, ∃ x, r.session? s = some x) (action : Action) : SweepTurn r i action := by
  cases hb : r.sweepBegun? i action with
  | some o =>
    unfold sweepBegun? at hb
    split at hb
    · split at hb
      · rename_i hi
        exact hi ▸ sweepTurn_sweep hcalm
      · cases hb
    · rename_i l hc
      split at hb
      · rename_i hbegins
        exact sweepTurn_beginsPass hcalm hc hbegins
      · cases hb
    · cases hb
  | none =>
    cases hm : r.sweepContinued? i action with
    | some o =>
      unfold sweepContinued? at hm
      split at hm
      · rename_i p j hp
        split at hm
        · rename_i hgo
          obtain ⟨hj, hready⟩ := Bool.and_eq_true_iff.mp hgo
          obtain rfl := eq_of_beq hj
          obtain ⟨c, hc, hcp⟩ := Option.bind_eq_some_iff.mp hp
          obtain ⟨hplan, hrest⟩ := hunder p hp
          exact sweepTurn_run hcalm hc hcp hplan hrest hready
        · cases hm
      · cases hm
    | none =>
      by_cases hcause : r.cause? action = some (.sweep i)
      · exact sweepTurn_of_waits hcause hb hm
      · exact sweepTurn_of_aside hr hcause hb hm

end Registry

end Multicast
