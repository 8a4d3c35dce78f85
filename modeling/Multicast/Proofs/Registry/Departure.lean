import Mathlib.Algebra.GroupWithZero.Nat
import Multicast.Proofs.Registry.Proceeding

/-! Who leaves in a run, and by what. The departures of a run are read off the stages before and
after each action; every departure is counted under its reason, and the callback of whoever departs
is called once or is owed by one call, unless the registry was dropped. -/

namespace Multicast

/-- One removal: who was removed, and by what. -/
structure Departure where
  session : SessionId
  cause : Cause
  deriving DecidableEq, Repr

/-- Those who left all at once, when the registry stopped or was dropped. -/
def unannounced (out : List Departure) : List SessionId :=
  (out.filter fun d => d.cause = .stop ∨ d.cause = .drop).map Departure.session

namespace Registry

/-- What an action removes subscribers for. -/
def cause? (r : Registry) : Action → Option Cause
  | .run (.worker _) => some .failure
  | .run (.call i) | .tick i => (r.calls[i]?).bind (Call.cause? i)
  | .unsubscribe _ => some (.unsubscribe r.calls.length)
  | .sweep => some (.sweep r.calls.length)
  | .stop => some .stop
  | .drop => some .drop
  | _ => none

/-- The subscribers that are removed in `v` and not yet in `r`. -/
def leavers (r v : Registry) : List SessionId :=
  (List.range v.sessions.length).filter fun s => v.isGone s && !r.isGone s

/-- The removals that one action brings about. -/
def departuresAt (r : Registry) (action : Action) : List Departure :=
  match r.cause? action with
  | some cause => (leavers r (r.apply action)).map (⟨·, cause⟩)
  | none => []

/-- The removals in a run, in order. -/
def departures (r : Registry) : List Action → List Departure
  | [] => []
  | action :: rest => r.departuresAt action ++ (r.apply action).departures rest

/-- How many calls of the callback of a subscriber are still to come. -/
def owed (r : Registry) (s : SessionId) : Nat := (r.calls.map (·.owed s)).sum

/-- Whether everybody who was ever registered is removed. -/
def AllGone (r : Registry) : Prop := ∀ s < r.sessions.length, r.isGone s = true

/-- What leads from `r` to `v` removes the departures `out`, and all accounts agree with that. -/
structure Passage (out : List Departure) (r v : Registry) : Prop where
  gone_iff : ∀ s, v.isGone s = true ↔ r.isGone s = true ∨ s ∈ out.map Departure.session
  fresh : ∀ d ∈ out, r.isGone d.session = false
  nodup : (out.map Departure.session).Nodup
  counted : ∀ q, v.metrics.value (.removed q) =
    r.metrics.value (.removed q) + out.countP fun d => d.cause.reason? = some q
  owes : ∀ s, v.hookCalls.count s + v.owed s =
    r.hookCalls.count s + r.owed s + out.countP fun d => d.session = s ∧ d.cause ≠ .drop
  told : ∀ E, r.Told E → v.Told (E ++ unannounced out)
  /-- A registry that is stopped stays so, and nobody is registered any more. -/
  closed : r.stopped = true → v.stopped = true ∧ v.sessions.length = r.sessions.length
  emptied : (r.stopped = true → r.AllGone) → v.stopped = true → v.AllGone

variable {r u v : Registry} {s : SessionId} {i : Nat} {c c' : Call} {action : Action}
  {cause : Option Cause} {gone called : List SessionId} {out out' : List Departure}

/-! ### Single departures -/

/-- What removes subscribers is a worker, a call or a loop that goes on, a call that is made, or the
end of the registry. -/
theorem cause?_cases {a : Cause} (h : r.cause? action = some a) :
    (∃ s, action = .run (.worker s)) ∧ a = .failure ∨
      (∃ i < r.calls.length, (action = .run (.call i) ∨ action = .tick i) ∧
        (a = .failure ∨ a = .sweep i)) ∨
      (∃ s, action = .unsubscribe s) ∧ a = .unsubscribe r.calls.length ∨
      action = .sweep ∧ a = .sweep r.calls.length ∨
      action = .stop ∧ a = .stop ∨ action = .drop ∧ a = .drop := by
  have hcall {i : Nat} (hi : (r.calls[i]?).bind (Call.cause? i) = some a) :
      i < r.calls.length ∧ (a = .failure ∨ a = .sweep i) := by
    obtain ⟨c, hc, hcause⟩ := Option.bind_eq_some_iff.mp hi
    exact ⟨(List.getElem?_eq_some_iff.mp hc).1, Call.cause?_cases hcause⟩
  cases action with
  | run t =>
    cases t with
    | worker s => exact .inl ⟨⟨s, rfl⟩, (Option.some.inj h).symm⟩
    | call i => exact .inr (.inl ⟨i, (hcall h).1, .inl rfl, (hcall h).2⟩)
  | tick i => exact .inr (.inl ⟨i, (hcall h).1, .inr rfl, (hcall h).2⟩)
  | unsubscribe s => exact .inr (.inr (.inl ⟨⟨s, rfl⟩, (Option.some.inj h).symm⟩))
  | sweep => exact .inr (.inr (.inr (.inl ⟨rfl, (Option.some.inj h).symm⟩)))
  | stop => exact .inr (.inr (.inr (.inr (.inl ⟨rfl, (Option.some.inj h).symm⟩))))
  | drop => exact .inr (.inr (.inr (.inr (.inr ⟨rfl, (Option.some.inj h).symm⟩))))
  | _ => cases h

theorem mem_departuresAt {d : Departure} : d ∈ r.departuresAt action ↔
    r.cause? action = some d.cause ∧ d.session ∈ leavers r (r.apply action) := by
  unfold departuresAt
  cases hcause : r.cause? action with
  | none => simp
  | some a =>
    rw [List.mem_map]
    constructor
    · rintro ⟨s, hs, rfl⟩
      exact ⟨rfl, hs⟩
    · rintro ⟨ha, hs⟩
      obtain rfl := Option.some.inj ha
      exact ⟨d.session, hs, rfl⟩

/-- An action that does nothing removes nobody. -/
theorem departuresAt_of_idle (h : r.apply action = r) : r.departuresAt action = [] := by
  apply List.eq_nil_iff_forall_not_mem.mpr
  intro d hd
  obtain ⟨-, hs⟩ := mem_departuresAt.mp hd
  rw [h, leavers, List.mem_filter, Bool.and_not_self] at hs
  cases hs.2

/-! ### Accounts -/

namespace Passage

theorem refl (r : Registry) : Passage [] r r where
  gone_iff _ := by simp
  fresh := nofun
  nodup := List.nodup_nil
  counted _ := rfl
  owes _ := rfl
  told E h := by
    rw [unannounced, List.filter_nil, List.map_nil, List.append_nil]
    exact h
  closed hs := ⟨hs, rfl⟩
  emptied h := h

theorem trans (h : Passage out r u) (h' : Passage out' u v) : Passage (out ++ out') r v where
  gone_iff s := by
    rw [h'.gone_iff, h.gone_iff, List.map_append, List.mem_append, or_assoc]
  fresh d hd := by
    rcases List.mem_append.mp hd with hd | hd
    · exact h.fresh d hd
    · have hu := h'.fresh d hd
      rw [← Bool.not_eq_true, h.gone_iff, not_or] at hu
      exact Bool.eq_false_iff.mpr hu.1
  nodup := by
    rw [List.map_append]
    refine List.nodup_append'.mpr ⟨h.nodup, h'.nodup, ?_⟩
    -- whoever leaves first is gone when the others leave
    intro s hs hs'
    obtain ⟨d, hd, rfl⟩ := List.mem_map.mp hs'
    have hgone : u.isGone d.session = true := (h.gone_iff _).mpr (.inr hs)
    rw [h'.fresh d hd] at hgone
    cases hgone
  counted q := by rw [h'.counted, h.counted, List.countP_append, Nat.add_assoc]
  owes s := by rw [h'.owes, h.owes, List.countP_append, Nat.add_assoc]
  told E hE := by
    have hboth := h'.told _ (h.told E hE)
    rwa [List.append_assoc, unannounced, unannounced, ← List.map_append,
      ← List.filter_append] at hboth
  closed hs := by
    obtain ⟨hu, hlength⟩ := h.closed hs
    obtain ⟨hv, hlength'⟩ := h'.closed hu
    exact ⟨hv, hlength'.trans hlength⟩
  emptied hr := h'.emptied (h.emptied hr)

/-- The accounts do not depend on the order of the departures. -/
theorem perm (h : Passage out r v) (hp : out.Perm out') : Passage out' r v where
  gone_iff s := by rw [h.gone_iff, (hp.map Departure.session).mem_iff]
  fresh d hd := h.fresh d (hp.mem_iff.mpr hd)
  nodup := (hp.map Departure.session).nodup_iff.mp h.nodup
  counted q := by rw [h.counted, hp.countP_eq]
  owes s := by rw [h.owes, hp.countP_eq]
  told E hE := by
    have hmem : ∀ s, s ∈ E ++ unannounced out ↔ s ∈ E ++ unannounced out' := by
      intro s
      rw [List.mem_append, List.mem_append, unannounced, unannounced,
        ((hp.filter _).map Departure.session).mem_iff]
    have htold := h.told E hE
    exact ⟨fun s hs => (htold.announced s hs).imp_left (hmem s).mp, htold.failed,
      Heard.mono htold.heard fun s => (hmem s).mp⟩
  closed := h.closed
  emptied := h.emptied

end Passage

/-! ### Pieces of work -/

/-- What leads from `r` to `v` removes whom it removes for one cause, or nobody. -/
def Departs (cause : Option Cause) (r v : Registry) : Prop :=
  ∃ out, Passage out r v ∧ ∀ d ∈ out, cause = some d.cause

theorem Departs.refl (cause : Option Cause) (r : Registry) : Departs cause r r :=
  ⟨[], .refl r, nofun⟩

/-- Work that removes nobody. -/
theorem Departs.passage_nil (h : Departs none r v) : Passage [] r v := by
  obtain ⟨out, hout, hnone⟩ := h
  have hnil : out = [] := List.eq_nil_iff_forall_not_mem.mpr fun d hd => nomatch hnone d hd
  rwa [hnil] at hout

theorem countP_map_departure (gone : List SessionId) (a : Cause) (P : Departure → Bool) :
    (gone.map fun s => (⟨s, a⟩ : Departure)).countP P = gone.countP fun s => P ⟨s, a⟩ :=
  List.countP_map

/-- A piece of work with an effect, after which the calls owe what has not been called yet. -/
theorem departs_of_effect (h : Effect (cause.bind Cause.reason?) gone called r u)
    (hn : cause = none → gone = []) (hstop : cause ≠ some .stop) (hdrop : cause ≠ some .drop)
    {calls : List Call} (howes : ∀ s, called.count s + (calls.map (·.owed s)).sum =
      (r.calls.map (·.owed s)).sum + gone.count s) :
    Departs cause r { u with calls := calls } := by
  have hclosed : r.stopped = true → u.stopped = true ∧ u.sessions.length = r.sessions.length :=
    fun hs => ⟨h.stopped.trans hs, h.closed hs⟩
  have hemptied : (r.stopped = true → r.AllGone) → u.stopped = true → u.AllGone := by
    intro hr hu s hs
    have hstopped : r.stopped = true := h.stopped.symm.trans hu
    rw [h.closed hstopped] at hs
    exact (h.gone_iff s).mpr (.inl (hr hstopped s hs))
  cases hcause : cause with
  | none =>
    obtain rfl := hn hcause
    refine ⟨[], ⟨h.gone_iff, nofun, List.nodup_nil, ?_, ?_, ?_, hclosed, hemptied⟩, nofun⟩
    · intro q
      have hq := h.counted q
      rwa [List.length_nil, ite_self] at hq
    · intro s
      have hs := howes s
      show u.hookCalls.count s + (calls.map (·.owed s)).sum = _
      rw [h.hooks, List.count_append]
      simp only [owed, List.count_nil, List.countP_nil] at hs ⊢
      omega
    · intro E hE
      rw [unannounced, List.filter_nil, List.map_nil, List.append_nil]
      exact (h.told E hE).congr rfl fun _ => rfl
  | some a =>
    have hmap : (gone.map fun s => (⟨s, a⟩ : Departure)).map Departure.session = gone := by
      rw [List.map_map]
      exact List.map_id gone
    rw [hcause] at h hstop hdrop
    refine ⟨gone.map (⟨·, a⟩), ⟨?_, ?_, ?_, ?_, ?_, ?_, hclosed, hemptied⟩, ?_⟩
    · rw [hmap]
      exact h.gone_iff
    · intro d hd
      obtain ⟨s, hs, rfl⟩ := List.mem_map.mp hd
      exact h.fresh s hs
    · rw [hmap]
      exact h.nodup
    · intro q
      show u.metrics.value (.removed q) = _
      rw [h.counted, countP_map_departure, Option.bind_some]
      by_cases hq : a.reason? = some q
      · simp [hq]
      · simp [hq]
    · intro s
      have hs := howes s
      show u.hookCalls.count s + (calls.map (·.owed s)).sum = _
      rw [h.hooks, List.count_append, countP_map_departure]
      have hcount : gone.countP (fun t => decide (t = s ∧ a ≠ .drop)) = gone.count s := by
        have hne : a ≠ .drop := fun ha => hdrop (congrArg some ha)
        rw [List.count]
        congr 1
        funext t
        simp [hne, beq_eq_decide]
      simp only [owed] at hs ⊢
      rw [hcount]
      omega
    · intro E hE
      have hnone : unannounced (gone.map (⟨·, a⟩)) = [] := by
        have hne : a ≠ .stop ∧ a ≠ .drop :=
          ⟨fun ha => hstop (congrArg some ha), fun ha => hdrop (congrArg some ha)⟩
        rw [unannounced, List.map_eq_nil_iff, List.filter_eq_nil_iff]
        intro d hd
        obtain ⟨s, _, rfl⟩ := List.mem_map.mp hd
        simp [hne]
      rw [hnone, List.append_nil]
      exact (h.told E hE).congr rfl fun _ => rfl
    · intro d hd
      obtain ⟨s, _, rfl⟩ := List.mem_map.mp hd
      rfl

/-- Work that leaves the calls alone calls the callbacks of those it removes at once. -/
theorem Departs.of_effect (h : Effect (cause.bind Cause.reason?) gone gone r v)
    (hn : cause = none → gone = []) (hstop : cause ≠ some .stop) (hdrop : cause ≠ some .drop) :
    Departs cause r v := by
  have hsame : { v with calls := r.calls } = v := by
    rw [← h.calls]
  rw [← hsame]
  exact departs_of_effect h hn hstop hdrop fun s => Nat.add_comm _ _

theorem Departs.of_quiet (h : Effect none [] [] r v) : Departs none r v :=
  .of_effect h (fun _ => rfl) nofun nofun

theorem sum_owed_set {calls : List Call} (hc : calls[i]? = some c) (c' : Call) (s : SessionId) :
    ((calls.set i c').map (·.owed s)).sum + c.owed s =
      (calls.map (·.owed s)).sum + c'.owed s := by
  induction calls generalizing i with
  | nil => cases hc
  | cons d rest ih =>
    cases i with
    | zero =>
      obtain rfl := Option.some.inj hc
      simp only [List.set_cons_zero, List.map_cons, List.sum_cons]
      omega
    | succ j =>
      have hrest := ih (i := j) hc
      simp only [List.set_cons_succ, List.map_cons, List.sum_cons]
      omega

/-- A call goes on to a point that owes what the call owed and has not called. -/
theorem Departs.setCall (h : Effect (cause.bind Cause.reason?) gone called r u)
    (hn : cause = none → gone = []) (hstop : cause ≠ some .stop) (hdrop : cause ≠ some .drop)
    (hc : r.calls[i]? = some c)
    (howes : ∀ s, called.count s + c'.owed s = c.owed s + gone.count s) :
    Departs cause r (u.setCall i c') := by
  have hcalls : u.setCall i c' = { u with calls := r.calls.set i c' } := by
    rw [← h.calls]
    rfl
  rw [hcalls]
  apply departs_of_effect h hn hstop hdrop
  intro s
  have hset := sum_owed_set hc c' s
  have hs := howes s
  omega

theorem Departs.of_proceeds (hc : r.calls[i]? = some c) (h : Proceeds cause r i c v)
    (hstop : cause ≠ some .stop) (hdrop : cause ≠ some .drop) : Departs cause r v := by
  obtain ⟨gone, called, u, c', heffect, hfollows, hn, rfl⟩ := h
  exact .setCall heffect hn hstop hdrop hc hfollows.owes

theorem Departs.addCall (h : Effect none [] [] r u) (hc : ∀ s, c.owed s = 0) :
    Departs none r (u.addCall c) := by
  have hcalls : u.addCall c = { u with calls := r.calls ++ [c] } := by
    rw [← h.calls]
    rfl
  have hquiet : Effect ((none : Option Cause).bind Cause.reason?) [] [] r u := h
  rw [hcalls]
  apply departs_of_effect hquiet (fun _ => rfl) nofun nofun
  intro s
  simp [hc s]

/-- A call that is made does what it does at once. -/
theorem Departs.startCall {f : Nat → Registry → Registry}
    (h : ∀ w : Registry, w = r.addCall .crashed → w.calls[r.calls.length]? = some .crashed →
      Departs cause w (f r.calls.length w)) : Departs cause r (r.startCall f) := by
  have hget : (r.addCall .crashed).calls[r.calls.length]? = some .crashed :=
    List.getElem?_concat_length
  obtain ⟨out, hout, hcause⟩ := h _ rfl hget
  have hadd : Departs none r (r.addCall .crashed) := .addCall (.refl r) fun _ => rfl
  exact ⟨out, hadd.passage_nil.trans hout, hcause⟩

theorem departs_settleCall {σ : Type} {wrap : σ → Call} (hw : ∀ st s, (wrap st).owed s = 0)
    {o : Registry × Progress σ Nat} (h : Effect (cause.bind Cause.reason?) gone gone r o.1)
    (hn : cause = none → gone = []) (hstop : cause ≠ some .stop) (hdrop : cause ≠ some .drop)
    (hc : r.calls[i]? = some .crashed) : Departs cause r (settleCall i wrap returnedCount o) := by
  have howes {d : Call} (hd : ∀ s, d.owed s = 0) (s : SessionId) :
      gone.count s + d.owed s = Call.owed s .crashed + gone.count s := by
    rw [hd s]
    exact Nat.add_comm _ _
  obtain ⟨w, progress⟩ := o
  cases progress with
  | running st => exact .setCall h hn hstop hdrop hc (howes (hw st))
  | done n => exact .setCall h hn hstop hdrop hc (howes fun _ => rfl)
  | crashed => exact .setCall h hn hstop hdrop hc (howes fun _ => rfl)

end Registry

end Multicast
