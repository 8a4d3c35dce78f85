import Multicast.Proofs.Registry.Effect

/-! The effects of deliveries, passes and farewells. Only a delivery whose write fails and a sweep
remove anybody, and they call the callback at once; taking leave of a subscriber calls its callback
when the worker has come to its end. -/

namespace Multicast

/-- How many calls of the callback are still to come from taking leave of a subscriber. -/
def Farewell.owed : Farewell → Nat
  | .fresh | .joining => 1
  | .saying _ => 0

/-- How many calls are to come from what taking leave has come to. -/
def Progress.owed {α : Type} : Progress Farewell α → Nat
  | .running f => f.owed
  | .done _ | .crashed => 0

/-- How many subscribers a sweep has removed that is under way. -/
def SweepPass.count (p : SweepPass) : Nat := p.removed + 1

/-- How many subscribers a sweep has removed, unless it has crashed. -/
def Progress.swept? : Progress SweepPass Nat → Option Nat
  | .running p => some p.count
  | .done n => some n
  | .crashed => none

namespace Registry

/-- The effect of delivering: whoever is removed has failed, and the callbacks are called at once. -/
def Delivers (r v : Registry) : Prop := ∃ gone, Effect (some .sinkFailure) gone gone r v

variable {r u v : Registry} {s : SessionId} {p : Party} {x : Session} {q : Option RemovalReason}
  {b : Batch Nat} {kind : DeliveryKind} {d : Delivery}

theorem Delivers.of_quiet (h : Effect (some .sinkFailure) [] [] r v) : r.Delivers v := ⟨[], h⟩

theorem Delivers.trans_quiet (h : r.Delivers u) (h' : Effect (some .sinkFailure) [] [] u v) :
    r.Delivers v := by
  obtain ⟨gone, hgone⟩ := h
  exact ⟨gone, hgone.trans_quiet h'⟩

theorem Delivers.quiet_trans (h : Effect (some .sinkFailure) [] [] r u) (h' : u.Delivers v) :
    r.Delivers v := by
  obtain ⟨gone, hgone⟩ := h'
  exact ⟨gone, h.quiet_trans hgone⟩

/-! ### Deliveries -/

theorem effect_sink (k : Session → Sink) :
    Effect q [] [] r (r.update s fun x => { x with sink := k x }) :=
  (Effect.refl r).update fun _ _ => Iff.rfl

theorem effect_updateQueue (f : Queue Nat → Queue Nat) : Effect q [] [] r (r.updateQueue s f) :=
  (Effect.refl r).update fun _ _ => Iff.rfl

theorem effect_beginDelivery : Effect q [] [] r (r.beginDelivery s p b kind).1 := by
  unfold beginDelivery
  cases r.session? s with
  | none => exact .refl r
  | some x =>
    dsimp only
    split
    · have hskipped := ((Effect.refl (q := q) r).note (e := .staleSkipped (r.nameOf s) kind b
        x.cursor.position) rfl rfl).count (Metrics.neutral_staleSkip kind)
      exact hskipped.note rfl rfl
    · exact (effect_sink fun _ => _).note rfl rfl

theorem effect_noteReturn (failure : SessionName → HookError → Event)
    (hf : ∀ who e, (failure who e).hooked? = none ∧ (failure who e).failed? = none)
    (result : Except HookError Unit) : Effect q [] [] r (r.noteReturn s failure result) := by
  cases result with
  | ok _ => exact (Effect.refl r).note rfl rfl
  | error e =>
    obtain ⟨hh, hn⟩ := hf (r.nameOf s) e
    exact ((Effect.refl r).note rfl rfl).note hh hn

theorem effect_writeSucceeded : Effect q [] [] r (r.writeSucceeded s d).1 := by
  have hwritten : Effect q [] [] r (r.update s Session.recordWrite) :=
    (Effect.refl r).update fun _ _ => Iff.rfl
  have hrecorded : Effect q [] [] r (if d.keepAlive then r.update s Session.recordWrite
      else (r.update s Session.recordWrite).update s (·.recordDelivery d.frame)) := by
    split
    · exact hwritten
    · exact hwritten.update fun _ _ => Iff.rfl
  unfold writeSucceeded finishDelivery
  exact ((hrecorded.count (Metrics.neutral_batchDelivered d.kind)).note rfl rfl).note rfl rfl

/-- A failed write is noted before the subscriber is removed; only then is it so that whoever had a
failed write is gone. -/
theorem effect_failure (hx : r.session? s = some x) (hs : x.stage ≠ .removed) {e : Event}
    (hh : e.hooked? = none) (hf : e.failed? = some s) {f : Metrics → Metrics}
    (hm : Metrics.Neutral f) :
    Effect (some .sinkFailure) [s] [] r (((r.note e).count f).detach s .sinkFailure).1 := by
  have hnow : ((r.note e).count f).session? s = some x := hx
  have hdetach := Effect.detach hnow hs .sinkFailure
  obtain ⟨a, ha, hfa, hha, n, heq⟩ := detach_told hnow hs .sinkFailure
  have hevents : (((r.note e).count f).detach s .sinkFailure).1.history =
      .removed ((((r.note e).count f).put s x.remove []).nameOf s) .sinkFailure n :: a :: e ::
        r.history := by
    rw [heq]
    rfl
  refine ⟨hdetach.gone_iff, hdetach.fresh, hdetach.nodup, ?_, ?_, ?_, hdetach.calls,
    hdetach.stopped, hdetach.closed⟩
  · intro reason
    rw [hdetach.counted]
    exact congrArg (· + _) ((hm r.metrics).2 reason)
  · exact hdetach.hooks.trans (List.filterMap_cons_none hh)
  · intro E hE
    refine ⟨?_, ?_, ?_⟩
    · intro t ht
      have hnames : s :: r.history.filterMap Event.announced? ⊆
          (((r.note e).count f).detach s .sinkFailure).1.history.filterMap Event.announced? := by
        rw [hevents, List.filterMap_cons, List.filterMap_cons_none ha]
        apply List.cons_subset_cons
        rw [List.filterMap_cons]
        split
        · exact List.Subset.refl _
        · exact List.subset_cons_self _ _
      rcases (hdetach.gone_iff t).mp ht with hold | hnew
      · exact (hE.announced t hold).imp_right fun hmem => hnames (List.mem_cons_of_mem s hmem)
      · rw [List.mem_singleton.mp hnew]
        exact .inr (hnames List.mem_cons_self)
    · intro t ht
      rw [hevents, List.filterMap_cons_none rfl, List.filterMap_cons_none hfa,
        List.filterMap_cons_some hf] at ht
      apply (hdetach.gone_iff t).mpr
      rcases List.mem_cons.mp ht with hnew | hold
      · exact .inr (List.mem_singleton.mpr hnew)
      · exact .inl (hE.failed t hold)
    · rw [hevents]
      exact Heard.cons (Heard.cons (Heard.cons hE.heard hh) hha) rfl

/-- A write that fails when its subscriber is gone already is noted, and that is all. -/
theorem effect_late_failure (hs : r.isGone s = true) {e : Event} (hh : e.hooked? = none)
    (ha : e.announced? = none) (hf : e.failed? = some s) : Effect q [] [] r (r.note e) where
  gone_iff _ := by simp [isGone, session?, note]
  fresh := nofun
  nodup := List.nodup_nil
  counted _ := by simp [note]
  hooks := List.filterMap_cons_none hh
  told E hE := by
    refine ⟨?_, ?_, Heard.cons hE.heard hh⟩
    · intro t ht
      have hnames : (r.note e).history.filterMap Event.announced? =
          r.history.filterMap Event.announced? := List.filterMap_cons_none ha
      rw [hnames]
      exact hE.announced t ht
    · intro t ht
      have hnames : (r.note e).history.filterMap Event.failed? =
          s :: r.history.filterMap Event.failed? := List.filterMap_cons_some hf
      rw [hnames] at ht
      rcases List.mem_cons.mp ht with rfl | hold
      · exact hs
      · exact hE.failed t hold
  calls := rfl
  stopped := rfl
  closed _ := rfl

theorem delivers_writeFailed (hx : r.session? s = some x) (e : SinkError) :
    r.Delivers (r.writeFailed s d e).1 := by
  have hcount := Metrics.neutral_sinkFailure d.kind
  unfold writeFailed
  dsimp only
  by_cases hs : x.stage = .removed
  · have hlate : Effect (some .sinkFailure) [] [] r
        ((r.note (.writeFailed (r.nameOf s) d.kind e)).count (·.sinkFailure d.kind)) :=
      (effect_late_failure ((isGone_of_session? hx).mpr hs) rfl rfl rfl).count hcount
    have hgone : ∀ y, r.session? s = some y → y.stage = .removed := by
      intro y hy
      obtain rfl := Option.some.inj (hx.symm.trans hy)
      exact hs
    have hsame := detach_of_removed (r := (r.note (.writeFailed (r.nameOf s) d.kind e)).count
      (·.sinkFailure d.kind)) hgone .sinkFailure
    rw [hsame]
    exact .of_quiet (hlate.note rfl rfl)
  · have hfailure := effect_failure hx hs (e := .writeFailed (r.nameOf s) d.kind e) rfl rfl hcount
    obtain ⟨_, _, _, _, _, heq⟩ := detach_told (r := (r.note (.writeFailed (r.nameOf s) d.kind
      e)).count (·.sinkFailure d.kind)) hx hs .sinkFailure
    have htrue : Registry.detach ((r.note (.writeFailed (r.nameOf s) d.kind e)).count
        (·.sinkFailure d.kind)) s .sinkFailure = ((Registry.detach ((r.note (.writeFailed
          (r.nameOf s) d.kind e)).count (·.sinkFailure d.kind)) s .sinkFailure).1, true) := by
      rw [heq]
    have hgone := (hfailure.gone_iff s).mpr (.inr List.mem_cons_self)
    rw [htrue]
    exact ⟨[s], hfailure.trans (.callAfter hgone)⟩

theorem delivers_deliveryStep : r.Delivers (r.deliveryStep s p d).1 := by
  unfold deliveryStep
  cases d.point with
  | writing point =>
    cases hx : r.session? s with
    | none => exact .of_quiet (.refl r)
    | some x =>
      dsimp only
      rcases x.sink.step r.now p d.frame point with ⟨sink, progress⟩
      have hsink : Effect (some .sinkFailure) [] [] r
          (r.update s fun x => { x with sink := sink }) := effect_sink fun _ => sink
      have hnow := session?_update hx fun x => { x with sink := sink }
      dsimp only
      -- what the sink has become does not matter from here on
      generalize (r.update s fun x => { x with sink := sink }) = w at *
      cases progress with
      | running point' => exact .of_quiet hsink
      | crashed => exact .of_quiet (hsink.note rfl rfl)
      | done result =>
        have htook := hsink.count (Metrics.neutral_writeTook d.kind (.ofMillis (w.now - d.begun)))
        cases result with
        | ok _ => exact .of_quiet (htook.quiet_trans effect_writeSucceeded)
        | error e =>
          have hnow' : Registry.session? (w.count (·.writeTook d.kind
            (.ofMillis (w.now - d.begun)))) s = some { x with sink := sink } := hnow
          exact .quiet_trans htook (delivers_writeFailed hnow' e)
  | removing hook =>
    dsimp only
    cases hook.step r.now with
    | running hook' => exact .of_quiet (.refl r)
    | crashed => exact .of_quiet (.refl r)
    | done result =>
      have hreturned := effect_noteReturn (q := some .sinkFailure) (r := r) (s := s) .hookFailed
        (fun _ _ => ⟨rfl, rfl⟩) result
      exact .of_quiet (hreturned.note rfl rfl)

/-! ### Direct deliveries -/

theorem effect_leave : Effect q [] [] r (r.leave s p) := effect_updateQueue _

theorem effect_askGate : Effect q [] [] r (r.askGate s p).1 := by
  unfold askGate
  split
  · exact .refl r
  · split
    · exact effect_updateQueue fun _ => _
    · exact .refl r

theorem delivers_directProgress {e : Direct} {o : Registry × Progress Delivery DeliveryOutcome}
    (h : r.Delivers o.1) : r.Delivers (directProgress p e o).1 := by
  obtain ⟨w, progress⟩ := o
  cases progress with
  | running run => exact h
  | done _ => exact h.trans_quiet effect_leave
  | crashed => exact h.trans_quiet effect_leave

theorem delivers_directStep (e : Direct) : r.Delivers (r.directStep p e).1 := by
  unfold directStep
  split
  · exact delivers_directProgress delivers_deliveryStep
  · split
    · exact .of_quiet (.refl r)
    · split
      · exact .of_quiet effect_leave
      · exact delivers_directProgress (.of_quiet effect_beginDelivery)

theorem effect_abandon (e : Direct) : Effect q [] [] r (r.abandon p e) :=
  (effect_sink fun x => x.sink.giveUp p).trans_quiet effect_leave

/-! ### The workers -/

theorem effect_setWorker (w : WorkerPoint Delivery) : Effect q [] [] r (r.setWorker s w) :=
  (Effect.refl r).update fun _ _ => Iff.rfl

theorem effect_workerTurn : Effect q [] [] r (r.workerTurn s) := by
  unfold workerTurn
  split
  · exact .refl r
  · split
    · exact (effect_updateQueue _).trans_quiet (effect_setWorker _)
    · exact (effect_setWorker _).note rfl rfl

theorem delivers_workerProgress {o : Registry × Progress Delivery DeliveryOutcome}
    (h : r.Delivers o.1) : r.Delivers (workerProgress s o) := by
  obtain ⟨w, progress⟩ := o
  cases progress with
  | running run => exact h.trans_quiet (effect_setWorker _)
  | done _ => exact h.trans_quiet (effect_leave.trans_quiet effect_workerTurn)
  | crashed => exact h.trans_quiet (effect_leave.trans_quiet (effect_setWorker _))

theorem delivers_workerStep : r.Delivers (r.workerStep s) := by
  unfold workerStep
  split
  · exact .of_quiet (.refl r)
  · split
    · exact .of_quiet (((Effect.refl r).note rfl rfl).quiet_trans effect_workerTurn)
    · split
      · refine delivers_workerProgress (.of_quiet ?_)
        exact (effect_updateQueue _).quiet_trans effect_beginDelivery
      · exact .of_quiet ((effect_updateQueue _).trans_quiet (effect_setWorker _))
    · exact delivers_workerProgress delivers_deliveryStep
    · split
      · exact .of_quiet ((effect_setWorker _).note rfl rfl)
      · exact .of_quiet ((effect_updateQueue _).trans_quiet effect_workerTurn)
    · exact .of_quiet (.refl r)
    · exact .of_quiet (.refl r)
    · exact .of_quiet (.refl r)

/-! ### Publishing -/

theorem effect_nextBackfill (attempted : Nat) (ss : List SessionId) :
    Effect q [] [] r (r.nextBackfill p b attempted ss).1 := by
  induction ss with
  | nil => exact (Effect.refl r).count (Metrics.neutral_batchPublished .historical attempted)
  | cons s rest ih =>
    have hasked : Effect q [] [] r (r.askGate s p).1 := effect_askGate
    rw [nextBackfill]
    split
    · exact ih
    · split
      · rename_i w hgate
        rwa [hgate] at hasked
      · exact ih

theorem delivers_backfillStep (f : Backfill) : r.Delivers (r.backfillStep p f).1 := by
  have hstep := delivers_directStep (r := r) (p := p) f.current
  unfold backfillStep
  rcases hres : r.directStep p f.current with ⟨w, progress⟩
  rw [hres] at hstep
  cases progress with
  | running e => exact hstep
  | crashed => exact hstep
  | done reached => exact hstep.trans_quiet (effect_nextBackfill _ _)

theorem effect_offer (s : SessionId) : Effect q [] [] r (r.offer b s).1 := by
  unfold offer
  cases hx : r.session? s with
  | none => exact .refl r
  | some x =>
    dsimp only
    split
    · exact .refl r
    · rcases henqueue : x.enqueue b with ⟨y, taken⟩
      cases taken with
      | false => exact .refl r
      | true =>
        refine Effect.note (.update (.refl r) ?_) rfl rfl
        intro z hz
        obtain rfl := Option.some.inj (hx.symm.trans hz)
        rw [show y = (x.enqueue b).1 by rw [henqueue]]
        rfl

theorem effect_offerAll (ss : List SessionId) : Effect q [] [] r (offerAll b ss r).1 := by
  induction ss generalizing r with
  | nil => exact .refl r
  | cons s rest ih =>
    have hoffer : Effect q [] [] r (r.offer b s).1 := effect_offer s
    rw [offerAll]
    rcases htaken : r.offer b s with ⟨w, taken⟩
    rw [htaken] at hoffer
    cases taken with
    | true => exact hoffer.trans_quiet ih
    | false => exact hoffer.trans_quiet ih

theorem effect_publishLive : Effect q [] [] r (r.publishLive b).1 := by
  unfold publishLive
  split
  · exact (effect_offerAll r.members).count (Metrics.neutral_batchPublished .live _)
  · exact .refl r

/-! ### Pings -/

theorem effect_askPings (ss : List SessionId) : Effect q [] [] r (r.askPings p ss).1 := by
  induction ss generalizing r with
  | nil => exact .refl r
  | cons s rest ih =>
    have hasked : Effect q [] [] r (r.askGate s p).1 := effect_askGate
    unfold askPings
    dsimp only
    split
    · rename_i w hgate
      rw [hgate] at hasked
      exact hasked.trans_quiet ih
    · exact ih

theorem effect_closePings (ps : List PingPoint) : Effect q [] [] r (r.closePings ps).1 := by
  unfold closePings
  split
  · exact (Effect.refl r).count (Metrics.neutral_pingPass _)
  · exact .refl r

theorem effect_beginPings : Effect q [] [] r (r.beginPings p).1 :=
  (effect_askPings _).trans_quiet (effect_closePings _)

theorem effect_abandonPings (ps : List PingPoint) : Effect q [] [] r (r.abandonPings p ps) := by
  induction ps generalizing r with
  | nil => exact .refl r
  | cons point rest ih =>
    cases point with
    | waiting e => exact (effect_abandon e).trans_quiet ih
    | answered _ => exact ih

theorem delivers_stepPings (ps : List PingPoint) : r.Delivers (r.stepPings p ps).1 := by
  induction ps with
  | nil => exact .of_quiet (.refl r)
  | cons point rest ih =>
    cases point with
    | answered _ => exact ih
    | waiting e =>
      have hstep := delivers_directStep (r := r) (p := p) e
      rw [stepPings]
      split
      · rcases hres : r.directStep p e with ⟨w, progress⟩
        rw [hres] at hstep
        cases progress with
        | running e' => exact hstep
        | done _ => exact hstep
        | crashed => exact hstep.trans_quiet (effect_abandonPings rest)
      · rcases hres : r.stepPings p rest with ⟨w, left⟩
        rw [hres] at ih
        cases left with
        | some ps => exact ih
        | none => exact ih.trans_quiet (effect_abandon e)

theorem delivers_pingStep (pass : PingPass) : r.Delivers (r.pingStep p pass).1 := by
  have hstep := delivers_stepPings (r := r) (p := p) pass.pings
  unfold pingStep
  rcases hres : r.stepPings p pass.pings with ⟨w, left⟩
  rw [hres] at hstep
  cases left with
  | some ps => exact hstep.trans_quiet (effect_closePings ps)
  | none => exact hstep

/-! ### Sweeps -/

/-- A sweep counts whom it removes. -/
theorem effect_nextSweep (removed : Nat) (ss : List SessionId) :
    ∃ gone, Effect (some .cancelled) gone gone r (r.nextSweep removed ss).1 ∧
      (r.nextSweep removed ss).2.swept? = some (removed + gone.length) := by
  induction ss with
  | nil =>
    refine ⟨[], ?_, rfl⟩
    rw [nextSweep]
    split
    · exact (Effect.refl r).note rfl rfl
    · exact .refl r
  | cons s rest ih =>
    rw [nextSweep]
    rcases detach_cases r s .cancelled with ⟨x, hx, hs, htrue⟩ | hsame
    · have hgone := Effect.detach_callAfter hx hs .cancelled
      have hpair : r.detach s .cancelled = ((r.detach s .cancelled).1, true) := by
        rw [← htrue]
      rw [hpair]
      exact ⟨[s], hgone, rfl⟩
    · rw [hsame]
      exact ih

theorem effect_sweepStep (pass : SweepPass) :
    ∃ gone, Effect (some .cancelled) gone gone r (r.sweepStep pass).1 ∧
      ∀ n, (r.sweepStep pass).2.swept? = some n → n = pass.count + gone.length := by
  unfold sweepStep
  cases pass.hook.step r.now with
  | running hook =>
    refine ⟨[], .refl r, ?_⟩
    intro n hn
    exact (Option.some.inj hn).symm
  | crashed => exact ⟨[], .refl r, nofun⟩
  | done result =>
    have hreturned := effect_noteReturn (q := some .cancelled) (r := r) (s := pass.session)
      .hookFailed (fun _ _ => ⟨rfl, rfl⟩) result
    obtain ⟨gone, hgone, hcount⟩ := effect_nextSweep
      (r := r.noteReturn pass.session .hookFailed result) (pass.removed + 1) pass.rest
    refine ⟨gone, hreturned.quiet_trans hgone, ?_⟩
    intro n hn
    exact Option.some.inj (hn.symm.trans hcount)

/-! ### Farewells -/

/-- Taking leave of a subscriber that is gone calls its callback, or owes the call still. -/
theorem effect_farewellStep (hs : r.isGone s = true) (f : Farewell) :
    ∃ k, Effect q [] (List.replicate k s) r (r.farewellStep s f).1 ∧
      k + (r.farewellStep s f).2.owed = f.owed := by
  have hcalled {w : Registry} (hw : Effect q [] [] r w) : Effect q [] [s] r (w.callAfter s).1 := by
    have hgone : w.isGone s = true := (hw.gone_iff s).mpr (.inl hs)
    exact hw.quiet_trans (.callAfter hgone)
  cases f with
  | fresh =>
    obtain ⟨x, hx, _⟩ := isGone_iff.mp hs
    unfold farewellStep
    rw [hx]
    dsimp only
    split
    · exact ⟨0, effect_updateQueue fun _ => x.queue.close.join.1, rfl⟩
    · exact ⟨1, hcalled (effect_updateQueue _), rfl⟩
  | joining =>
    unfold farewellStep
    dsimp only
    refine ⟨1, hcalled ?_, rfl⟩
    split
    · exact (Effect.refl r).note rfl rfl
    · exact .refl r
  | saying hook =>
    unfold farewellStep
    dsimp only
    cases hook.step r.now with
    | running _ => exact ⟨0, .refl r, rfl⟩
    | crashed => exact ⟨0, .refl r, rfl⟩
    | done _ => exact ⟨0, .refl r, rfl⟩

theorem effect_noteCrashes (is : List Nat) : Effect q [] [] r (noteCrashes is r) := by
  induction is generalizing r with
  | nil => exact .refl r
  | cons j rest ih =>
    rw [noteCrashes]
    split
    · exact ((Effect.refl r).note rfl rfl).trans_quiet ih
    · exact ih

/-! ### Subscribers come and begin -/

/-- Who is registered is not gone. -/
theorem effect_enrol (hopen : r.stopped = false) (request : Subscription) :
    Effect q [] [] r (r.enrol request).1 := by
  have hsame : ∀ t, (r.enrol request).1.isGone t = r.isGone t := by
    intro t
    rw [isGone, session?_enrol]
    split
    · rename_i ht
      rw [isGone, ht, session?_length]
      rfl
    · rfl
  refine ⟨fun t => by simp [hsame], ?_, List.nodup_nil, ?_, rfl, ?_, rfl, rfl, ?_⟩
  · intro s hs
    cases hs
  · intro reason
    simp [enrol, note, count, Metrics.setSessions, Metrics.value]
  · intro E hE
    have hbare : Told E { (r.enrol request).1 with history := r.history } := hE.congr rfl hsame
    exact hbare.note rfl rfl
  · intro hstopped
    rw [hopen] at hstopped
    cases hstopped

theorem stage_activate (x : Session) : x.activate.1.stage = .removed ↔ x.stage = .removed := by
  cases hs : x.stage with
  | active => simp [Session.activate, hs]
  | removed => simp [Session.activate, hs]
  | registered =>
    simp only [Session.activate, hs]
    split <;> simp

theorem effect_activate (s : SessionId) : Effect q [] [] r (r.activate s).1 := by
  unfold activate
  cases hx : r.session? s with
  | none => exact .refl r
  | some x =>
    have hstage : ∀ y, r.session? s = some y →
        (x.activate.1.stage = .removed ↔ y.stage = .removed) := by
      intro y hy
      obtain rfl := Option.some.inj (hx.symm.trans hy)
      exact stage_activate x
    dsimp only
    rcases hactivate : x.activate with ⟨y, started⟩
    rw [hactivate] at hstage
    have hupdate : Effect q [] [] r (r.update s fun _ => y) := (Effect.refl r).update hstage
    cases started with
    | true => exact hupdate.note rfl rfl
    | false => exact hupdate

end Registry

end Multicast
