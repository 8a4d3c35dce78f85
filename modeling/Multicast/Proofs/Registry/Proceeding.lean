import Multicast.Proofs.Registry.Run
import Multicast.Proofs.Registry.Work

/-! What becomes of the calls that remove subscribers. A call that goes on removes for its own cause;
it calls the callbacks of those it removes, or owes the call still; one that unsubscribes goes on to
the answer of the winner, and a sweep counts whom it has removed. -/

namespace Multicast

/-- What removes a subscriber. -/
inductive Cause
  /-- The call with a number unsubscribes it. -/
  | unsubscribe (call : Nat)
  /-- The sweep of the call or loop with a number removes it. -/
  | sweep (call : Nat)
  /-- A write to it has failed. -/
  | failure
  | stop
  | drop
  deriving DecidableEq, Repr

/-- The reason under which a removal is counted, if it is. -/
def Cause.reason? : Cause → Option RemovalReason
  | .unsubscribe _ => some .unsubscribed
  | .sweep _ => some .cancelled
  | .failure => some .sinkFailure
  | .stop => some .shutdown
  | .drop => none

namespace Call

/-- The cause for which a call removes subscribers when it goes on. -/
def cause? (i : Nat) : Call → Option Cause
  | .sweeping _ | .sweepLoop _ => some (.sweep i)
  | .backfilling _ | .sending _ | .pinging _ | .pingLoop _ => some .failure
  | _ => none

/-- How many calls of the callback of a subscriber are still to come from a call. -/
def owed (s : SessionId) : Call → Nat
  | .unsubscribing t f | .farewell t f => if t = s then f.owed else 0
  | _ => 0

/-- Whether a call stands as one that unsubscribes a subscriber and has removed it: it takes leave of
the subscriber, or has returned that it was removed or the failure of the callback, or has crashed
with the callback. -/
def Takes (s : SessionId) : Call → Prop
  | .unsubscribing t _ => t = s
  | .returned (.ok (.flag removed)) => removed = true
  | .returned (.error (.hook _)) => True
  | .crashed => True
  | _ => False

/-- Whether a call stands as a sweep that has removed `n` subscribers, or has crashed. -/
def Swept (n : Nat) : Call → Prop
  | .sweeping p => p.count = n
  | .returned (.ok (.count m)) => m = n
  | .crashed => True
  | _ => False

/-- What follows from a call when it has removed `gone` and called the callbacks of `called`. -/
structure Follows (c : Call) (gone called : List SessionId) (c' : Call) : Prop where
  owes : ∀ s, called.count s + c'.owed s = c.owed s + gone.count s
  takes : ∀ s, c.Takes s → c'.Takes s
  swept : ∀ n, c.Swept n → c'.Swept (n + gone.length)

/-- A call that neither owes a callback, nor unsubscribes, nor counts what it sweeps. -/
structure Plain (c : Call) : Prop where
  owed : ∀ s, c.owed s = 0
  takes : ∀ s, ¬ c.Takes s
  swept : ∀ n, ¬ c.Swept n

variable {c c' : Call} {gone : List SessionId} {i : Nat} {a : Cause}

theorem cause?_cases (h : c.cause? i = some a) : a = .failure ∨ a = .sweep i := by
  cases c with
  | sweeping | sweepLoop => exact .inr (Option.some.inj h).symm
  | backfilling | sending | pinging | pingLoop => exact .inl (Option.some.inj h).symm
  | _ => cases h

/-- A call of which nothing is asked may go on to any point that owes nothing. -/
theorem Plain.follows (h : c.Plain) (h' : ∀ s, c'.owed s = 0) : c.Follows gone gone c' where
  owes s := by rw [h.owed s, h' s, Nat.add_comm]
  takes s hs := absurd hs (h.takes s)
  swept n hn := absurd hn (h.swept n)

end Call

namespace Registry

/-- A call goes on from the point `c`, and its work has an effect for one cause; without a cause it
removes nobody. -/
def Proceeds (cause : Option Cause) (r : Registry) (i : Nat) (c : Call) (v : Registry) : Prop :=
  ∃ gone called u c', Effect (cause.bind Cause.reason?) gone called r u ∧
    c.Follows gone called c' ∧ (cause = none → gone = []) ∧ v = u.setCall i c'

variable {T : Terms} {r u : Registry} {i : Nat} {c c' : Call} {s : SessionId}

theorem Proceeds.of_quiet (h : Effect none [] [] r u) (hc : c.Plain) (h' : ∀ s, c'.owed s = 0) :
    Proceeds none r i c (u.setCall i c') :=
  ⟨[], [], u, c', h, hc.follows h', fun _ => rfl, rfl⟩

theorem Proceeds.of_delivers (h : r.Delivers u) (hc : c.Plain) (h' : ∀ s, c'.owed s = 0) :
    Proceeds (some .failure) r i c (u.setCall i c') := by
  obtain ⟨gone, hgone⟩ := h
  exact ⟨gone, gone, u, c', hgone, hc.follows h', nofun, rfl⟩

/-! ### Each kind of call -/

theorem proceeds_subscribeStep (request : Subscription) (hook : HookRun) :
    Proceeds none r i (.subscribing request hook) (r.subscribeStep i request hook) := by
  have hplain : (Call.subscribing request hook).Plain := ⟨fun _ => rfl, fun _ => id, fun _ => id⟩
  unfold subscribeStep
  split
  · exact .of_quiet (.refl r) hplain fun _ => rfl
  · exact .of_quiet (.refl r) hplain fun _ => rfl
  · exact .of_quiet (.refl r) hplain fun _ => rfl
  · split
    · exact .of_quiet (.refl r) hplain fun _ => rfl
    · rename_i hopen
      exact .of_quiet (effect_enrol (Bool.eq_false_iff.mpr hopen) request) hplain fun _ => rfl

theorem proceeds_settleCall {σ : Type} {wrap : σ → Call} (hw : ∀ st s, (wrap st).owed s = 0)
    (hc : c.Plain) {o : Registry × Progress σ Nat} (h : r.Delivers o.1) :
    Proceeds (some .failure) r i c (settleCall i wrap returnedCount o) := by
  obtain ⟨w, progress⟩ := o
  cases progress with
  | running st => exact .of_delivers h hc (hw st)
  | done n => exact .of_delivers h hc fun _ => rfl
  | crashed => exact .of_delivers h hc fun _ => rfl

theorem proceeds_sent (d : Direct) :
    Proceeds (some .failure) r i (.sending d) (sent i (r.directStep (.call i) d)) := by
  have hplain : (Call.sending d).Plain := ⟨fun _ => rfl, fun _ => id, fun _ => id⟩
  have hstep := delivers_directStep (r := r) (p := .call i) d
  rcases hres : r.directStep (.call i) d with ⟨w, progress⟩
  rw [hres] at hstep
  cases progress with
  | running d' => exact .of_delivers hstep hplain fun _ => rfl
  | done reached =>
    have hcounted := (Effect.refl (q := some .sinkFailure) w).count
      (Metrics.neutral_batchPublished .historical (if reached then 1 else 0))
    exact .of_delivers (hstep.trans_quiet hcounted) hplain fun _ => rfl
  | crashed => exact .of_delivers hstep hplain fun _ => rfl

/-- A sweep that goes on counts whom it removes. -/
theorem proceeds_sweepStep (p : SweepPass) :
    Proceeds (some (.sweep i)) r i (.sweeping p)
      (settleCall i .sweeping returnedCount (r.sweepStep p)) := by
  obtain ⟨gone, heffect, hcount⟩ := effect_sweepStep (r := r) p
  have hfollows {c' : Call} (howed : ∀ s, c'.owed s = 0)
      (hswept : c'.Swept (p.count + gone.length)) : (Call.sweeping p).Follows gone gone c' := by
    refine ⟨fun s => ?_, fun _ => False.elim, ?_⟩
    · rw [howed s, Nat.add_comm]
      rfl
    · rintro n rfl
      exact hswept
  rcases hres : r.sweepStep p with ⟨w, progress⟩
  rw [hres] at heffect hcount
  cases progress with
  | running p' =>
    exact ⟨gone, gone, w, .sweeping p', heffect, hfollows (fun _ => rfl) (hcount _ rfl), nofun, rfl⟩
  | done n =>
    exact ⟨gone, gone, w, returnedCount n, heffect, hfollows (fun _ => rfl) (hcount n rfl), nofun,
      rfl⟩
  | crashed =>
    exact ⟨gone, gone, w, .crashed, heffect, hfollows (fun _ => rfl) trivial, nofun, rfl⟩

theorem plain_sweepLoop (l : Loop SweepPass) : (Call.sweepLoop l).Plain :=
  ⟨fun _ => rfl, fun _ => id, fun _ => id⟩

theorem plain_pingLoop (l : Loop PingPass) : (Call.pingLoop l).Plain :=
  ⟨fun _ => rfl, fun _ => id, fun _ => id⟩

theorem proceeds_sweepLoopProgress (hc : c.Plain) (l : Loop SweepPass) {gone : List SessionId}
    {o : Registry × Progress SweepPass Nat} (h : Effect (some .cancelled) gone gone r o.1) :
    Proceeds (some (.sweep i)) r i c (sweepLoopProgress i l o) := by
  obtain ⟨w, progress⟩ := o
  cases progress with
  | running pass => exact ⟨gone, gone, w, _, h, hc.follows fun _ => rfl, nofun, rfl⟩
  | done n => exact ⟨gone, gone, w, _, h, hc.follows fun _ => rfl, nofun, rfl⟩
  | crashed => exact ⟨gone, gone, w, _, h, hc.follows fun _ => rfl, nofun, rfl⟩

theorem proceeds_sweepTick (l l' : Loop SweepPass) :
    Proceeds (some (.sweep i)) r i (.sweepLoop l) (r.sweepTick i l') := by
  obtain ⟨gone, heffect, _⟩ := effect_nextSweep (r := r) 0 (r.members.filter r.isCancelled)
  exact proceeds_sweepLoopProgress (plain_sweepLoop l) _ heffect

theorem proceeds_sweepLoopStep (l : Loop SweepPass) :
    Proceeds (some (.sweep i)) r i (.sweepLoop l) (r.sweepLoopStep i l) := by
  unfold sweepLoopStep
  split
  · rename_i pass hpass
    obtain ⟨gone, heffect, _⟩ := effect_sweepStep (r := r) pass
    exact proceeds_sweepLoopProgress (plain_sweepLoop l) l heffect
  · split
    · have hnoted : Effect (some .cancelled) [] [] r (r.note (.loopCancelled .sweep)) :=
        (Effect.refl r).note rfl rfl
      exact ⟨[], [], _, _, hnoted, (plain_sweepLoop l).follows fun _ => rfl, nofun, rfl⟩
    · exact proceeds_sweepTick l l

theorem proceeds_pingLoopProgress (hc : c.Plain) (l : Loop PingPass)
    {o : Registry × Progress PingPass Nat} (h : r.Delivers o.1) :
    Proceeds (some .failure) r i c (pingLoopProgress i l o) := by
  obtain ⟨w, progress⟩ := o
  cases progress with
  | running pass => exact .of_delivers h hc fun _ => rfl
  | done n => exact .of_delivers (h.trans_quiet ((Effect.refl w).note rfl rfl)) hc fun _ => rfl
  | crashed => exact .of_delivers h hc fun _ => rfl

theorem proceeds_pingTick (l l' : Loop PingPass) :
    Proceeds (some .failure) r i (.pingLoop l) (r.pingTick i l') :=
  proceeds_pingLoopProgress (plain_pingLoop l) _ (.of_quiet effect_beginPings)

theorem proceeds_pingLoopStep (l : Loop PingPass) :
    Proceeds (some .failure) r i (.pingLoop l) (r.pingLoopStep i l) := by
  unfold pingLoopStep
  split
  · exact proceeds_pingLoopProgress (plain_pingLoop l) l (delivers_pingStep _)
  · split
    · exact .of_delivers (.of_quiet ((Effect.refl r).note rfl rfl)) (plain_pingLoop l) fun _ => rfl
    · exact proceeds_pingTick l l

theorem proceeds_stopStep (p : StopPoint) :
    Proceeds none r i (.stopping p) (r.stopStep i p) := by
  have hplain : (Call.stopping p).Plain := ⟨fun _ => rfl, fun _ => id, fun _ => id⟩
  have hnoted : Effect none [] [] r (noteCrashes (p.waiting.filter r.isOver) r) :=
    effect_noteCrashes _
  unfold stopStep
  dsimp only
  split
  · exact .of_quiet (hnoted.note rfl rfl) hplain fun _ => rfl
  · split
    · exact .of_quiet (hnoted.note rfl rfl) hplain fun _ => rfl
    · exact .of_quiet hnoted hplain fun _ => rfl

/-! ### Taking leave -/

/-- The callbacks called and those still to come are those that were to come. -/
theorem count_replicate_add {k n m : Nat} (h : k + n = m) (s t : SessionId) :
    (List.replicate k s).count t + (if s = t then n else 0) = if s = t then m else 0 := by
  rw [List.count_replicate, beq_eq_decide]
  by_cases hst : s = t
  · simpa [hst] using h
  · simp [hst]

theorem count_replicate_of_over {k m : Nat} (h : k + 0 = m) (s t : SessionId) :
    (List.replicate k s).count t + 0 = if s = t then m else 0 := by
  have hcount := count_replicate_add h s t
  rwa [ite_self] at hcount

/-- A farewell goes on to owe the callback or to have called it. -/
theorem proceeds_farewellProgress (hs : r.isGone s = true) (f : Farewell) :
    Proceeds none r i (.farewell s f) (farewellProgress i s (r.farewellStep s f)) := by
  obtain ⟨k, heffect, hk⟩ := effect_farewellStep (q := none) hs f
  have hfollows {c' : Call} (howed : ∀ t, (List.replicate k s).count t + c'.owed t =
      if s = t then f.owed else 0) : (Call.farewell s f).Follows [] (List.replicate k s) c' :=
    ⟨fun t => howed t, fun _ => False.elim, fun _ => False.elim⟩
  rcases hres : r.farewellStep s f with ⟨w, progress⟩
  rw [hres] at heffect hk
  cases progress with
  | running f' =>
    exact ⟨[], _, w, .farewell s f', heffect, hfollows (count_replicate_add hk s), fun _ => rfl, rfl⟩
  | done result =>
    have hreturned := effect_noteReturn (q := none) (r := w) (s := s) .farewellFailed
      (fun _ _ => ⟨rfl, rfl⟩) result
    exact ⟨[], _, _, .returned (.ok .nothing), heffect.trans_quiet hreturned,
      hfollows (count_replicate_of_over hk s), fun _ => rfl, rfl⟩
  | crashed =>
    exact ⟨[], _, w, .crashed, heffect, hfollows (count_replicate_of_over hk s), fun _ => rfl, rfl⟩

/-- A call that takes leave of a subscriber goes on to owe the callback or to have called it, and
stands as one that has removed the subscriber. -/
theorem proceeds_unsubscribeProgress {q : Option RemovalReason} (hs : r.isGone s = true)
    (f : Farewell) : ∃ k w c', Effect q [] (List.replicate k s) r w ∧
      (∀ t, (List.replicate k s).count t + c'.owed t = if s = t then f.owed else 0) ∧
      c'.Takes s ∧ unsubscribeProgress i s (r.farewellStep s f) = w.setCall i c' := by
  obtain ⟨k, heffect, hk⟩ := effect_farewellStep (q := q) hs f
  rcases hres : r.farewellStep s f with ⟨w, progress⟩
  rw [hres] at heffect hk
  cases progress with
  | running f' =>
    exact ⟨k, w, .unsubscribing s f', heffect, count_replicate_add hk s, rfl, rfl⟩
  | done result =>
    have hcount := count_replicate_of_over hk s
    cases result with
    | ok _ =>
      exact ⟨k, _, .returned (.ok (.flag true)), heffect.note rfl rfl, hcount, rfl, rfl⟩
    | error e =>
      exact ⟨k, _, .returned (.error (.hook e)), heffect.note rfl rfl, hcount, trivial, rfl⟩
  | crashed => exact ⟨k, w, .crashed, heffect, count_replicate_of_over hk s, trivial, rfl⟩

/-! ### Every call -/

theorem isGone_of_placed (hr : Settled T r) (hc : r.calls[i]? = some c)
    (hf : c.Fit T r → ∃ x, r.session? s = some x ∧ x.stage = .removed) : r.isGone s = true :=
  isGone_iff.mpr (hf (hr.placed c (List.mem_of_getElem? hc)).fit)

/-- A call that need not wait proceeds. -/
theorem proceeds_callStep (hr : Settled T r) (hc : r.calls[i]? = some c)
    (hready : r.callReady i c = true) : Proceeds (c.cause? i) r i c (r.callStep i c) := by
  cases c with
  | subscribing request hook => exact proceeds_subscribeStep request hook
  | backfilling b =>
    exact proceeds_settleCall (fun _ _ => rfl) ⟨fun _ => rfl, fun _ => id, fun _ => id⟩
      (delivers_backfillStep b)
  | sending d => exact proceeds_sent d
  | unsubscribing s f =>
    have hgone : r.isGone s = true := isGone_of_placed hr hc id
    obtain ⟨k, w, c', heffect, howed, htakes, heq⟩ := proceeds_unsubscribeProgress (i := i) hgone f
    refine ⟨[], _, w, c', heffect, ⟨howed, ?_, fun _ => False.elim⟩, fun _ => rfl, heq⟩
    rintro t rfl
    exact htakes
  | farewell s f => exact proceeds_farewellProgress (isGone_of_placed hr hc id) f
  | sweeping p => exact proceeds_sweepStep p
  | pinging p =>
    exact proceeds_settleCall (fun _ _ => rfl) ⟨fun _ => rfl, fun _ => id, fun _ => id⟩
      (delivers_pingStep p)
  | stopping p => exact proceeds_stopStep p
  | awaitingRemoval s =>
    exact .of_quiet (.refl r) ⟨fun _ => rfl, fun _ => id, fun _ => id⟩ fun _ => rfl
  | sweepLoop l => exact proceeds_sweepLoopStep l
  | pingLoop l => exact proceeds_pingLoopStep l
  | returned _ => cases hready
  | crashed => cases hready

end Registry

end Multicast
