import Multicast.Proofs.Registry.Posts

/-! Deliveries as chains of turns. Each function that lets a delivery begin or go on takes the party
that delivers from its post to the next one, and does nothing else that its lane would notice. -/

namespace Multicast

open Function (update)

variable {T : Terms} {r : Registry} {P : Posts} {s : SessionId} {p : Party} {x : Session}

/-! ### Single turns -/

namespace Metrics

theorem neutral_add {c : Counter} (hc : ∀ reason, c ≠ .removed reason) (n : Nat) :
    Neutral (·.add c n) := by
  refine fun m => ⟨rfl, fun reason => ?_⟩
  rw [value_add, if_neg (hc reason)]

theorem Neutral.comp {f g : Metrics → Metrics} (hf : Neutral f) (hg : Neutral g) :
    Neutral fun m => g (f m) := fun m =>
  ⟨(hg (f m)).1.trans (hf m).1, fun reason => ((hg (f m)).2 reason).trans ((hf m).2 reason)⟩

theorem neutral_batchPublished (kind : DeliveryKind) (n : Nat) : Neutral (·.batchPublished kind n) :=
  (neutral_add (c := .published kind) nofun 1).comp (neutral_add (c := .routed kind) nofun n)

theorem neutral_pingPass (n : Nat) : Neutral (·.pingPass n) :=
  (neutral_add (c := .pingPasses) nofun 1).comp (neutral_add (c := .pingsSent) nofun n)

theorem neutral_batchDelivered (kind : DeliveryKind) : Neutral (·.batchDelivered kind) :=
  neutral_add (c := .delivered kind) nofun 1

theorem neutral_staleSkip (kind : DeliveryKind) : Neutral (·.staleSkip kind) :=
  neutral_add (c := .staleSkips kind) nofun 1

theorem neutral_sinkFailure (kind : DeliveryKind) : Neutral (·.sinkFailure kind) :=
  neutral_add (c := .sinkFailures kind) nofun 1

theorem neutral_writeTook (kind : DeliveryKind) (d : Duration) : Neutral (·.writeTook kind d) :=
  fun _ => ⟨rfl, fun _ => rfl⟩

end Metrics

namespace Turn

/-- A lane takes a turn that changes the subscriber and no post, with no event. -/
theorem session (hx : r.session? s = some x) {f : Session → Session}
    (hw : (f x).worker = x.worker) (hr : (f x).stage = x.stage)
    (ht : Lane.Turn T ⟨x, P s, r.log s⟩ ⟨f x, P s, r.log s⟩) :
    Turn T ⟨r, P⟩ ⟨r.update s f, P⟩ := by
  have hturn : Turn T ⟨r, P⟩ ⟨r.put s (f x) [], update P s (P s)⟩ := .lane hx nofun hw hr ht
  rwa [← Registry.update_eq_put hx, Function.update_eq_self] at hturn

/-- A lane takes a turn in which one party goes to another post and the subscriber changes. -/
theorem sessionMove (hx : r.session? s = some x) {f : Session → Session} {post : Post}
    (hw : (f x).worker = x.worker) (hr : (f x).stage = x.stage)
    (ht : Lane.Turn T ⟨x, P s, r.log s⟩ ⟨f x, update (P s) p post, r.log s⟩) :
    Turn T ⟨r, P⟩ ⟨r.update s f, P.move s p post⟩ := by
  have hturn : Turn T ⟨r, P⟩ ⟨r.put s (f x) [], P.move s p post⟩ := .lane hx nofun hw hr ht
  rwa [← Registry.update_eq_put hx] at hturn

theorem move (hx : r.session? s = some x) {post : Post}
    (ht : Lane.Turn T ⟨x, P s, r.log s⟩ ⟨x, update (P s) p post, r.log s⟩) :
    Turn T ⟨r, P⟩ ⟨r, P.move s p post⟩ := by
  have hself : r.update s id = r := by
    rw [Registry.update, List.modify_id]
  have hturn := sessionMove (T := T) (P := P) (f := id) hx rfl rfl ht
  rwa [hself] at hturn

theorem sink (hx : r.session? s = some x) (k : Sink) :
    Turn T ⟨r, P⟩ ⟨r.update s fun x => { x with sink := k }, P⟩ :=
  session hx rfl rfl (.adjust k x.queue.signal x.queue.unjoined (.inl rfl))

theorem leave (hx : r.session? s = some x) (hp : (P s p).mayLeave = true) :
    Turn T ⟨r, P⟩ ⟨r.leave s p, P.move s p .away⟩ :=
  sessionMove hx rfl rfl (.leave p hp)

/-- A subscriber is removed, and all parties stand where they did. -/
theorem detached (reason : RemovalReason) (hx : r.session? s = some x) (hr : x.stage ≠ .removed) :
    Turn T ⟨r, P⟩ ⟨(r.detach s reason).1, P⟩ := by
  have hturn : Turn T ⟨r, P⟩ ⟨(r.detach s reason).1, update P s (P s)⟩ :=
    .detach reason hx hr .remove
  rwa [Function.update_eq_self] at hturn

/-- A lane takes a turn with one event, in which one party goes to another post. -/
theorem mark (hx : r.session? s = some x) {y : Session} {post : Post} {e : Event} {m : WriteMark}
    (he : ∀ t, e.mark? t = if s = t then some m else none) (hw : y.worker = x.worker)
    (hr : y.stage = x.stage)
    (ht : Lane.Turn T ⟨x, P s, r.log s⟩ ⟨y, update (P s) p post, m :: r.log s⟩) :
    Turn T ⟨r, P⟩ ⟨r.put s y [e], P.move s p post⟩ := by
  refine .lane hx ?_ hw hr ?_
  · intro f hf t hts
    rw [List.mem_singleton.mp hf, he t, if_neg (Ne.symm hts)]
  · have hmark : [e].filterMap (·.mark? s) = [m] := by
      simp [he s]
    rw [hmark]
    exact ht

end Turn

theorem Turns.refl (a : Posted) : Turns T a a := Relation.ReflTransGen.refl

theorem Turns.snoc {a b c : Posted} (h : Turns T a b) (t : Turn T b c) : Turns T a c :=
  Relation.ReflTransGen.tail h t

theorem Turns.note {a : Posted} (h : Turns T a ⟨r, P⟩) {e : Event} (he : ∀ s, e.mark? s = none) :
    Turns T a ⟨r.note e, P⟩ :=
  h.snoc (.note e he)

theorem Turns.count {a : Posted} (h : Turns T a ⟨r, P⟩) {f : Metrics → Metrics}
    (hf : Metrics.Neutral f) : Turns T a ⟨r.count f, P⟩ :=
  h.snoc (.count f hf)

namespace Registry

/-! ### The beginning of a delivery -/

/-- Data that is stale comes to nothing. -/
theorem beginDelivery_of_stale {b : Batch Nat} {kind : DeliveryKind} (hx : r.session? s = some x)
    (hk : (decide (kind = .ping) || b.isPing) = false) (hstale : r.isStale x b = true) :
    r.beginDelivery s p b kind =
      ((r.note (.staleSkipped (r.nameOf s) kind b x.cursor.position)).count
        (·.staleSkip kind)).finishDelivery s .stale := by
  simp only [beginDelivery, hx, hk, hstale, Bool.not_false, Bool.and_self, if_true]

/-- The write of anything else begins. -/
theorem beginDelivery_of_fresh {b : Batch Nat} {kind : DeliveryKind} {keepAlive : Bool}
    (hx : r.session? s = some x) (hk : (decide (kind = .ping) || b.isPing) = keepAlive)
    (hfresh : keepAlive = true ∨ r.isStale x b = false) :
    r.beginDelivery s p b kind =
      let started := r.update s fun y => { y with sink := (x.sink.startWrite r.now p).1 }
      (started.note (.writeBegun (started.nameOf s) kind keepAlive (r.hooks.process x b)),
        .running {
          kind := kind
          keepAlive := keepAlive
          frame := r.hooks.process x b
          begun := r.now
          point := .writing (x.sink.startWrite r.now p).2 }) := by
  have hpass : (!keepAlive && r.isStale x b) = false := by
    rcases hfresh with rfl | hfresh
    · rfl
    · rw [hfresh, Bool.and_false]
  simp only [beginDelivery, hx, hk, hpass, Bool.false_eq_true, if_false]
  rfl

/-- A delivery begins only for the holder of the gate of an open queue. It is busy then, unless the
batch was stale. -/
theorem turns_beginDelivery (hs : Sound T ⟨r, P⟩) (hx : r.session? s = some x)
    (hp : P s p = .waiting) (hg : x.queue.gate.holds p = true) (hc : x.queue.closed = false)
    {b : Batch Nat} {kind : DeliveryKind} (hb : kind ≠ .ping → T.admits b) :
    Turns T ⟨r, P⟩
      ⟨(r.beginDelivery s p b kind).1, P.move s p (r.beginDelivery s p b kind).2.post⟩ := by
  unfold beginDelivery
  rw [hx]
  dsimp only
  split
  · -- what is stale ends at once, and its party waits as before
    have hstay : P.move s p .waiting = P := Posts.move_eq_self hp
    simp only [finishDelivery, Progress.post, hstay]
    refine Turns.note (.count (.note (.refl _) ?_) (Metrics.neutral_staleSkip kind)) ?_
    · exact fun _ => rfl
    · exact fun _ => rfl
  · rename_i hcond
    rcases x.sink.startWrite r.now p with ⟨sink, point⟩
    dsimp only
    rw [update_eq_put hx]
    refine (Turns.refl _).snoc (Turn.mark hx (fun t => rfl) rfl rfl ?_)
    -- only data is held against the cursor, so only there the terms must allow the frame
    refine .begin p _ sink hp hg hc rfl ?_
    intro hk
    change (decide (kind = .ping) || b.isPing) = false at hk
    rw [hk, Bool.not_false, Bool.true_and, isStale, hs.policy] at hcond
    obtain ⟨hkind, hping⟩ := Bool.or_eq_false_iff.mp hk
    refine ⟨b, hb (of_decide_eq_false hkind), hping, Bool.eq_false_iff.mpr hcond, ?_⟩
    exact congrFun (congrFun hs.process x) b

/-- Only a keep-alive goes out as a ping. -/
theorem keepAlive_of_beginDelivery {b : Batch Nat} {d : Delivery}
    (h : (r.beginDelivery s p b .ping).2 = .running d) : d.keepAlive = true := by
  unfold beginDelivery at h
  split at h
  · cases h
  · simp only [decide_true, Bool.true_or, Bool.not_true, Bool.false_and, Bool.false_eq_true,
      if_false] at h
    cases h
    rfl

/-! ### The course of a delivery -/

theorem turns_callAfter (r : Registry) (P : Posts) (s : SessionId) :
    Turns T ⟨r, P⟩ ⟨(r.callAfter s).1, P⟩ := by
  unfold callAfter
  split
  · exact .refl _
  · exact (Turns.refl _).note fun _ => rfl

theorem turns_noteReturn (r : Registry) (P : Posts) (s : SessionId)
    (failure : SessionName → HookError → Event) (hf : ∀ who e t, (failure who e).mark? t = none)
    (result : Except HookError Unit) : Turns T ⟨r, P⟩ ⟨r.noteReturn s failure result, P⟩ := by
  cases result with
  | ok _ => exact (Turns.refl _).note fun _ => rfl
  | error e =>
    refine Turns.note (.note (.refl _) ?_) ?_
    · exact fun _ => rfl
    · exact hf _ e

theorem turns_writeSucceeded (hx : r.session? s = some x) {d : Delivery} (hp : P s p = .busy d)
    (hw : d.isWriting = true) :
    Turns T ⟨r, P⟩ ⟨(r.writeSucceeded s d).1, P.move s p .waiting⟩ := by
  -- both records change the same subscriber, so that they are one change of its lane
  have hput : (if d.keepAlive then r.update s Session.recordWrite
      else (r.update s Session.recordWrite).update s (·.recordDelivery d.frame)) =
      r.put s (if d.keepAlive then x.recordWrite else x.recordWrite.recordDelivery d.frame) [] := by
    cases d.keepAlive with
    | true => exact update_eq_put hx _
    | false =>
      simp only [Bool.false_eq_true, if_false]
      rw [update_eq_put (session?_update hx _), update_eq_put hx, put_put]
      rfl
  have hmark (peer : String) : Turn T ⟨r, P⟩ ⟨r.put s (if d.keepAlive then x.recordWrite
      else x.recordWrite.recordDelivery d.frame)
      [.writeSucceeded ⟨s, peer⟩ d.kind d.keepAlive d.frame], P.move s p .waiting⟩ := by
    refine Turn.mark hx (fun t => rfl) ?_ ?_ (.succeed p d hp hw)
    · split <;> rfl
    · split <;> rfl
  unfold writeSucceeded finishDelivery
  dsimp only
  rw [hput]
  refine Turns.note ?_ (fun _ => rfl)
  exact ((Turns.refl _).snoc (hmark _)).count (Metrics.neutral_batchDelivered d.kind)

/-- A write that has failed removes the subscriber, unless it is removed already; so nothing is
written after it. -/
theorem turns_writeFailed (hx : r.session? s = some x) {d : Delivery} (hp : P s p = .busy d)
    (hw : d.isWriting = true) (e : SinkError) :
    Turns T ⟨r, P⟩ ⟨(r.writeFailed s d e).1, P.move s p (r.writeFailed s d e).2.post⟩ := by
  have hnoted : Turns T ⟨r, P⟩
      ⟨(r.note (.writeFailed (r.nameOf s) d.kind e)).count (·.sinkFailure d.kind), P⟩ :=
    ((Turns.refl _).note fun _ => rfl).count (Metrics.neutral_sinkFailure d.kind)
  have hnow : Registry.session? ((r.note (.writeFailed (r.nameOf s) d.kind e)).count
      (·.sinkFailure d.kind)) s = some x := hx
  unfold writeFailed
  dsimp only
  -- neither the event nor the count matters from here on
  generalize (r.note (.writeFailed (r.nameOf s) d.kind e)).count (·.sinkFailure d.kind) = v at *
  by_cases hr : x.stage = .removed
  · have hdetach : v.detach s .sinkFailure = (v, false) := by
      refine detach_of_removed ?_ _
      intro y hy
      obtain rfl := Option.some.inj (hnow.symm.trans hy)
      exact hr
    rw [hdetach]
    -- somebody else has removed the subscriber while the write went on
    refine Turns.note (hnoted.snoc (.move hnow ?_)) (fun _ => rfl)
    exact .settle p d .waiting hp (fun _ => ⟨hr, rfl⟩) (.inl rfl)
  · obtain ⟨es, he, hdetach⟩ := detach_eq hnow hr .sinkFailure
    -- the removal and the step to the callback are one turn: nobody else has removed the subscriber
    have hfell (hook : HookRun) : Turn T ⟨v, P⟩ ⟨(v.detach s .sinkFailure).1,
        P.move s p (.busy { d with point := .removing hook })⟩ :=
      .detach _ hnow hr (.fall p d _ hp hw hr rfl)
    have htrue : v.detach s .sinkFailure = ((v.detach s .sinkFailure).1, true) := by
      rw [hdetach]
    rw [htrue]
    generalize (v.detach s .sinkFailure).1 = u at *
    exact (hnoted.snoc (hfell _)).trans (turns_callAfter (T := T) u _ s)

/-- A delivery that goes on is busy still, or at its end has the gate without a delivery. -/
theorem turns_deliveryStep (hx : r.session? s = some x) {d : Delivery} (hp : P s p = .busy d) :
    Turns T ⟨r, P⟩ ⟨(r.deliveryStep s p d).1, P.move s p (r.deliveryStep s p d).2.post⟩ := by
  unfold deliveryStep
  cases hpoint : d.point with
  | writing point =>
    have hw : d.isWriting = true := by simp only [Delivery.isWriting, hpoint]
    rw [hx]
    dsimp only
    rcases x.sink.step r.now p d.frame point with ⟨sink, progress⟩
    have hsink : Turns T ⟨r, P⟩ ⟨r.update s fun x => { x with sink := sink }, P⟩ :=
      (Turns.refl _).snoc (.sink hx sink)
    have hnow := session?_update hx fun x => { x with sink := sink }
    dsimp only
    -- what the sink has become does not matter from here on
    generalize (r.update s fun x => { x with sink := sink }) = v at *
    cases progress with
    | running point' =>
      refine hsink.snoc (.move hnow (.goOn p d _ hp rfl rfl ?_))
      rw [hw]
      rfl
    | crashed =>
      have hcrash : Turn T ⟨v, P⟩ ⟨v.put s { x with sink := sink }
          [.writeCrashed (v.nameOf s) d.kind d.keepAlive d.frame], P.move s p .waiting⟩ :=
        Turn.mark hnow (fun t => rfl) rfl rfl (.crash p d hp hw)
      rw [put_self hnow] at hcrash
      exact hsink.snoc hcrash
    | done result =>
      have htook := hsink.count (Metrics.neutral_writeTook d.kind (.ofMillis (v.now - d.begun)))
      have hnow' : Registry.session? (v.count (·.writeTook d.kind (.ofMillis (v.now - d.begun))))
        s = some { x with sink := sink } := hnow
      cases result with
      | ok _ => exact htook.trans (turns_writeSucceeded hnow' hp hw)
      | error e => exact htook.trans (turns_writeFailed hnow' hp hw e)
  | removing hook =>
    have hw : d.isWriting = false := by simp only [Delivery.isWriting, hpoint]
    -- the write is over already, so that the delivery may settle at any stage
    have hsettled (post : Post)
        (hq : post = .waiting ∨ ∃ d', post = .busy d' ∧ d'.isWriting = false) :
        Turns T ⟨r, P⟩ ⟨r, P.move s p post⟩ := by
      refine (Turns.refl _).snoc (.move hx (.settle p d post hp ?_ hq))
      rw [hw]
      exact nofun
    dsimp only
    cases hook.step r.now with
    | running hook' => exact hsettled _ (.inr ⟨_, rfl, rfl⟩)
    | crashed => exact hsettled _ (.inl rfl)
    | done result =>
      refine Turns.note (.trans (hsettled .waiting (.inl rfl)) ?_) (fun _ => rfl)
      exact turns_noteReturn r _ s .hookFailed (fun _ _ _ => rfl) result

theorem keepAlive_of_writeFailed {d d' : Delivery} {e : SinkError}
    (h : (r.writeFailed s d e).2 = .running d') : d'.keepAlive = d.keepAlive := by
  unfold writeFailed at h
  dsimp only at h
  split at h
  · cases h
    rfl
  · cases h

/-- A delivery stays what it is. -/
theorem keepAlive_of_deliveryStep {d d' : Delivery}
    (h : (r.deliveryStep s p d).2 = .running d') : d'.keepAlive = d.keepAlive := by
  revert h
  unfold deliveryStep
  cases d.point with
  | writing point =>
    cases r.session? s with
    | none => exact nofun
    | some x =>
      dsimp only
      rcases x.sink.step r.now p d.frame point with ⟨sink, progress⟩
      cases progress with
      | running point' =>
        intro h
        cases h
        rfl
      | crashed => exact nofun
      | done result =>
        cases result with
        | ok _ => exact nofun
        | error e => exact keepAlive_of_writeFailed
  | removing hook =>
    dsimp only
    cases hook.step r.now with
    | running hook' =>
      intro h
      cases h
      rfl
    | crashed => exact nofun
    | done result => exact nofun

end Registry

/-! ### Direct deliveries -/

/-- Where the party stands when its direct delivery has gone on. -/
def Progress.directPost : Progress Direct Bool → Post
  | .running d => d.post
  | .done _ | .crashed => .away

/-- What is asked of a direct delivery: its batch is published, unless it is a ping, which leaves
the cursor alone. -/
structure Direct.Fit (T : Terms) (d : Direct) : Prop where
  admits : d.kind ≠ .ping → T.admits d.batch
  keepAlive : d.kind = .ping → ∀ run, d.delivery = some run → run.keepAlive = true

namespace Registry

/-- A gate is given only by a subscriber that is there and has an open queue. -/
theorem turns_askGate {v : Registry} (h : r.askGate s p = (v, true)) (hp : P s p = .away) :
    Turns T ⟨r, P⟩ ⟨v, P.move s p .waiting⟩ ∧ ∃ x, r.session? s = some x := by
  unfold askGate at h
  cases hx : r.session? s with
  | none => simp [hx] at h
  | some x =>
    rw [hx] at h
    dsimp only at h
    cases hc : x.queue.closed with
    | true => simp [Queue.ask, hc] at h
    | false =>
      simp only [Queue.ask, hc, Bool.false_eq_true, if_false, Prod.mk.injEq, and_true] at h
      subst h
      refine ⟨(Turns.refl _).snoc (.sessionMove hx rfl rfl ?_), x, rfl⟩
      have hjoin : Lane.Turn T ⟨x, P s, r.log s⟩
          ⟨{ x with queue := { x.queue with gate := x.queue.gate.join p } },
            Function.update (P s) p .waiting, r.log s⟩ := .join p hp hc
      simpa only [hc] using hjoin

/-- A direct delivery has the gate while it goes on, and gives it back at its end. -/
theorem turns_directProgress {a : Posted} {d : Direct}
    {o : Registry × Progress Delivery DeliveryOutcome}
    (h : Turns T a ⟨o.1, P.move d.session p o.2.post⟩) (hx : o.1.session? d.session = some x) :
    Turns T a ⟨(directProgress p d o).1,
      P.move d.session p (directProgress p d o).2.directPost⟩ := by
  have hleave (ho : o.2.post = .waiting) :
      Turns T a ⟨o.1.leave d.session p, P.move d.session p .away⟩ := by
    rw [ho] at h
    have hmay : (P.move d.session p .waiting d.session p).mayLeave = true := by
      rw [Posts.move_self]
      rfl
    have hturn := Turn.leave (T := T) hx hmay
    rw [Posts.move_move] at hturn
    exact h.snoc hturn
  obtain ⟨v, progress⟩ := o
  cases progress with
  | running run => exact h
  | done _ => exact hleave rfl
  | crashed => exact hleave rfl

theorem turns_directStep (hs : Sound T ⟨r, P⟩) {d : Direct} (hx : r.session? d.session = some x)
    (hp : P d.session p = d.post) (hready : r.directReady p d = true) (hd : d.Fit T) :
    Turns T ⟨r, P⟩ ⟨(r.directStep p d).1,
      P.move d.session p (r.directStep p d).2.directPost⟩ := by
  cases hrun : d.delivery with
  | some run =>
    have hbusy : P d.session p = .busy run := by rw [hp, Direct.post, hrun]
    have hturns := turns_deliveryStep (T := T) hx hbusy
    obtain ⟨y, hy, _⟩ := hturns.shifts.known hx
    simp only [directStep, hrun]
    exact turns_directProgress hturns hy
  | none =>
    have hwaiting : P d.session p = .waiting := by rw [hp, Direct.post, hrun]
    have hholds : x.queue.gate.holds p = true := by simpa only [directReady, hrun, hx] using hready
    simp only [directStep, hrun, hx]
    cases hc : x.queue.closed with
    | true =>
      refine (Turns.refl _).snoc (.leave hx ?_)
      rw [hwaiting]
      rfl
    | false =>
      have hturns := turns_beginDelivery hs hx hwaiting hholds hc hd.admits
      obtain ⟨y, hy, _⟩ := hturns.shifts.known hx
      simp only [Bool.false_eq_true, if_false]
      exact turns_directProgress hturns hy

/-- A direct delivery keeps to its subscriber and its batch. -/
theorem directStep_running {d d' : Direct} (h : (r.directStep p d).2 = .running d') (hd : d.Fit T) :
    d'.session = d.session ∧ d'.batch = d.batch ∧ d'.kind = d.kind ∧ d'.Fit T := by
  have hprogress {o : Registry × Progress Delivery DeliveryOutcome}
      (h : (directProgress p d o).2 = .running d')
      (hk : d.kind = .ping → ∀ run, o.2 = .running run → run.keepAlive = true) :
      d'.session = d.session ∧ d'.batch = d.batch ∧ d'.kind = d.kind ∧ d'.Fit T := by
    obtain ⟨v, progress⟩ := o
    cases progress with
    | running run =>
      cases h
      refine ⟨rfl, rfl, rfl, hd.admits, ?_⟩
      intro hping run' hrun'
      cases hrun'
      exact hk hping run rfl
    | done _ => cases h
    | crashed => cases h
  unfold directStep at h
  cases hrun : d.delivery with
  | some run =>
    rw [hrun] at h
    apply hprogress h
    intro hping run' hrun'
    exact (keepAlive_of_deliveryStep hrun').trans (hd.keepAlive hping run hrun)
  | none =>
    rw [hrun] at h
    dsimp only at h
    split at h
    · cases h
    · split at h
      · cases h
      · apply hprogress h
        intro hping run' hrun'
        rw [hping] at hrun'
        exact keepAlive_of_beginDelivery hrun'

/-- A ping may be given up at any moment. -/
theorem turns_abandon {d : Direct} (hx : r.session? d.session = some x)
    (hp : P d.session p = d.post) (hd : d.Fit T) (hping : d.kind = .ping) :
    Turns T ⟨r, P⟩ ⟨r.abandon p d, P.move d.session p .away⟩ := by
  have hsink : Turns T ⟨r, P⟩
      ⟨r.update d.session fun x => { x with sink := x.sink.giveUp p }, P⟩ :=
    (Turns.refl _).snoc
      (.session hx rfl rfl (.adjust _ x.queue.signal x.queue.unjoined (.inl rfl)))
  refine hsink.snoc (.leave (session?_update hx _) ?_)
  rw [hp, Direct.post]
  cases hrun : d.delivery with
  | none => rfl
  | some run => simp [Post.mayLeave, Delivery.writesData, hd.keepAlive hping run hrun]

end Registry

end Multicast
