import Mathlib.Algebra.Order.BigOperators.Group.Finset
import Multicast.Demo.Basic
import Multicast.Proofs.Demo.Newcomer
import Multicast.Proofs.Registry.Routing

/-! The subscribers of the demonstration together, as the registry has them. While one of them is
dealt with, the others keep their seats; what is announced goes to those for whom it is. -/

namespace Multicast

namespace Demo

open Registry (Tends)

variable {config : Config} {r u v : Registry} {i j m n : Nat} {x y : Session} {d : Demo}
  {taken skipped : List (Batch Nat)} {numbers : List Nat} {Q Q' : Portion → Prop}

/-! ### The registry -/

/-- What holds of the registry until the demonstration is told to end. -/
structure Calm (config : Config) (r : Registry) : Prop where
  settled : Settled (.any config hooks True) r
  hooks : r.hooks = hooks
  tokens : r.cancelledTokens = []
  running : r.stopped = false

theorem Calm.policy (h : Calm config r) : r.config.stalePolicy = config.stalePolicy :=
  h.settled.sound.policy

theorem Calm.process (h : Calm config r) (x : Session) (b : Batch Nat) :
    r.hooks.process x b = b := by
  rw [h.hooks]
  rfl

/-- An action that leaves alone what surrounds the subscribers. -/
theorem Calm.apply (h : Calm config r) (action : Action) (hv : r.apply action = v)
    (hhooks : v.hooks = r.hooks) (htokens : v.cancelledTokens = r.cancelledTokens)
    (hstopped : v.stopped = r.stopped) : Calm config v := by
  subst hv
  exact ⟨(Registry.reaches_apply h.settled action.keeps_any).settled, hhooks.trans h.hooks,
    htokens.trans h.tokens, hstopped.trans h.running⟩

/-- The registry lets a task go on that need not wait. -/
theorem apply_run {t : Task} (hready : r.ready t = true) : r.apply (.run t) = r.step t := by
  simp only [Registry.apply, hready, if_true]

/-! ### Seats -/

/-- The subscriber `i` has a seat in the registry, its consumer having received `taken`: the numbers
are dealt with fairly that were announced for it, and how they are divided is as `Q` says. -/
def Seated (policy : StalePolicy) (announced : List Nat) (Q : Portion → Prop) (i : Nat)
    (taken : List (Batch Nat)) (r : Registry) : Prop :=
  ∃ x p, r.session? i = some x ∧ Seat i taken (r.skips i) p x ∧
    p.Fair policy (lastPast i) (share i announced) ∧ Q p

/-- How many steps at most are left to the worker and the consumer of a subscriber. -/
def stepsLeftOf (r : Registry) (i : Nat) : Nat := ((r.session? i).map Session.stepsLeft).getD 0

variable {policy : StalePolicy}

theorem Seated.congr (h : Seated policy numbers Q i taken r)
    (hsession : v.session? i = r.session? i) (hskips : v.skips i = r.skips i) :
    Seated policy numbers Q i taken v := by
  obtain ⟨x, p, hx, hseat, hfair, hQ⟩ := h
  exact ⟨x, p, hsession.trans hx, hskips ▸ hseat, hfair, hQ⟩

/-- The worker of a subscriber goes on. -/
theorem Seated.workerStep (h : Seated config.stalePolicy numbers Q i taken r)
    (hcalm : Calm config r) (hready : r.workerReady i = true)
    (hkeep : ∀ p q, p.Fair config.stalePolicy (lastPast i) (share i numbers) →
      p.Move config.stalePolicy (lastPast i) q → Q p → Q q) :
    ∃ y skipped, Tends i r (r.workerStep i) y skipped ∧
      Seated config.stalePolicy numbers Q i taken (r.workerStep i) ∧
      stepsLeftOf (r.workerStep i) i < stepsLeftOf r i := by
  obtain ⟨x, p, hx, hseat, hfair, hQ⟩ := h
  obtain ⟨y, q, hadvances⟩ := hseat.workerStep hx hready hcalm.process
  obtain ⟨skipped, ht⟩ := hadvances.tends
  have hmove : p.Move config.stalePolicy (lastPast i) q := hcalm.policy ▸ hadvances.move
  refine ⟨y, skipped, ht, ⟨y, q, ht.session?_self, hadvances.seat, hfair.move hmove,
    hkeep p q hfair hmove hQ⟩, ?_⟩
  rw [stepsLeftOf, stepsLeftOf, ht.session?_self, hx]
  exact hadvances.less

/-- The consumer of a subscriber receives a batch. -/
theorem Seated.receive (h : Seated policy numbers Q i taken r) {b : Batch Nat}
    (hreceived : r.receive? i = some (b, v)) :
    ∃ y, Tends i r v y [] ∧ Seated policy numbers Q i (taken ++ [b]) v ∧
      stepsLeftOf v i < stepsLeftOf r i := by
  obtain ⟨x, p, hx, hseat, hfair, hQ⟩ := h
  obtain ⟨y, ht, hseat', hless⟩ := hseat.receive hx hreceived
  refine ⟨y, ht, ⟨y, p, ht.session?_self, hseat', hfair, hQ⟩, ?_⟩
  rw [stepsLeftOf, stepsLeftOf, ht.session?_self, hx]
  exact hless

/-! ### What is announced -/

theorem skips_offer (b : Batch Nat) (s t : SessionId) : (r.offer b s).1.skips t = r.skips t := by
  unfold Registry.offer
  split
  · rfl
  · split
    · rfl
    · split <;> rfl

theorem skips_offerAll (b : Batch Nat) (ss : List SessionId) (t : SessionId) :
    (Registry.offerAll b ss r).1.skips t = r.skips t := by
  induction ss generalizing r with
  | nil => rfl
  | cons s rest ih =>
    have hoffer := skips_offer (r := r) b s t
    rw [Registry.offerAll]
    split
    all_goals
      rename_i w hw
      rw [hw] at hoffer
      exact ih.trans hoffer

theorem skips_publishLive (b : Batch Nat) (t : SessionId) :
    (r.publishLive b).1.skips t = r.skips t := by
  unfold Registry.publishLive
  split
  · exact skips_offerAll b r.members t
  · rfl

/-- A number is published: it goes to those who want to see it, and to nobody else. -/
theorem Calm.publishLive (h : Calm config r) (m : Nat) :
    ∃ v routed, r.publishLive (liveBatch m) = (v, .ok routed) ∧ Calm config v ∧
      v.calls = r.calls ∧ v.now = r.now ∧ v.sessions.length = r.sessions.length ∧
      (∀ t, v.skips t = r.skips t) ∧
      ∀ t x, r.session? t = some x → x.stage ≠ .removed → v.session? t =
        some (if x.filter (event m) then (x.enqueue (liveBatch m)).1 else x) := by
  obtain ⟨u, hloads, hpublish⟩ := Registry.publishLive_single h.settled (event m)
  obtain ⟨v, hv⟩ : ∃ v, v = (r.publishLive (liveBatch m)).1 := ⟨_, rfl⟩
  have hcount : v = u.count (·.batchPublished .live
      (r.members.filter (r.wants (event m))).length) := hv.trans (congrArg Prod.fst hpublish)
  have hrest := hloads.rest
  have hturns : Turns (.any config Demo.hooks True) ⟨r, r.posts⟩ ⟨v, r.posts⟩ :=
    hv ▸ Registry.turns_publishLive trivial
  have hlength : v.sessions.length = r.sessions.length := hturns.length_eq
  refine ⟨v, _, hpublish.trans (by rw [hcount]), ?_, ?_, ?_, hlength, fun t => ?_,
    fun t x hx hstage => ?_⟩
  · refine h.apply (.publishLive (liveBatch m)) hv.symm ?_ ?_ ?_
    all_goals rw [hcount, hrest]; rfl
  · rw [hcount, hrest]; rfl
  · rw [hcount, hrest]; rfl
  · rw [hv, skips_publishLive]
  · have hmember : t ∈ r.members := (h.settled.sound.mem_iff t).mpr ⟨x, hx, hstage⟩
    have hwants : r.wants (event m) t = x.filter (event m) := by
      rw [Registry.wants_of_session hx, isCancelled_of_no_tokens h.tokens, Bool.not_false,
        Bool.true_and]
    have hwanted : t ∈ r.members.filter (r.wants (event m)) ↔ x.filter (event m) = true := by
      rw [List.mem_filter, hwants]
      exact and_iff_right hmember
    have hsession : v.session? t = u.session? t := by
      rw [hcount]
      rfl
    rw [hsession, hloads.sessions, hx, Option.map_some]
    simp only [hwanted, liveBatch]

/-- A number is announced that is newer than all before it, or that was announced before. -/
theorem Seated.publishLive (h : Seated policy numbers Q i taken r) (hm : lastPast i < m)
    (hnew : (∀ s ∈ numbers, s ≤ m) ∨ m ∈ numbers) (hskips : ∀ t, v.skips t = r.skips t)
    (hsession : ∀ t x, r.session? t = some x → x.stage ≠ .removed → v.session? t =
      some (if x.filter (event m) then (x.enqueue (liveBatch m)).1 else x))
    (hmine : m % 3 = i % 3 → ∀ p, p.Fair policy (lastPast i) (share i numbers) → Q p →
      Q' (p.announce m)) (hother : m % 3 ≠ i % 3 → ∀ p, Q p → Q' p) :
    Seated policy (numbers ++ [m]) Q' i taken v := by
  obtain ⟨x, p, hx, hseat, hfair, hQ⟩ := h
  have hstage : x.stage ≠ .removed := by
    rw [hseat.active]
    exact nofun
  have hnow := hsession i x hx hstage
  rw [hseat.filter, tagged_event] at hnow
  rw [Seated, hskips, share_append]
  by_cases htenant : m % 3 = i % 3
  · have hshare : share i [m] = [m] := List.filter_cons_of_pos (decide_eq_true htenant)
    rw [hshare]
    rw [if_pos (decide_eq_true htenant)] at hnow
    refine ⟨_, _, hnow, hseat.enqueue m, hfair.announce hm ?_, hmine htenant p hfair hQ⟩
    refine hnew.imp (fun hall s hs => hall s (mem_share_iff.mp hs).1) fun hold => ?_
    exact mem_share_iff.mpr ⟨hold, htenant⟩
  · have hshare : share i [m] = [] := List.filter_cons_of_neg (by simpa using htenant)
    rw [hshare, List.append_nil]
    rw [if_neg (by simpa using htenant)] at hnow
    exact ⟨x, p, hnow, hseat, hfair, hother htenant p hQ⟩

end Demo

end Multicast
