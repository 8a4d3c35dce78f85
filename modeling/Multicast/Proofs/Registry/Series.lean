import Multicast.Proofs.Registry.Account
import Multicast.Proofs.Registry.Backlog
import Multicast.Proofs.Registry.LastWrite

/-! Deliveries to one subscriber, one after the other, whose writes all succeed. Whoever makes them,
and whatever happens to the registry between two steps of them, what the subscriber knows afterwards
follows from the batches, from the stale policy and from what is sent in place of each batch. -/

namespace Multicast

/-- What is to be delivered to a subscriber. -/
structure Parcel where
  kind : DeliveryKind
  batch : Batch Nat
  deriving DecidableEq, Repr

/-- Whether a parcel only shows that the connection lives: a ping with any batch, or no data. -/
def Parcel.isKeepAlive (e : Parcel) : Bool := decide (e.kind = .ping) || e.batch.isPing

/-- A delivery as it went. -/
@[ext]
structure Receipt where
  parcel : Parcel
  /-- The cursor when the delivery began. -/
  found : Cursor Nat
  /-- What was written, unless the batch was skipped as stale. -/
  frame? : Option (Batch Nat)
  /-- The cursor when the delivery had ended. -/
  left : Cursor Nat
  deriving DecidableEq, Repr

namespace Receipt

/-- The mark that a delivery leaves in the log, if it has written. -/
def mark? (e : Receipt) : Option WriteMark := e.frame?.map (.written e.parcel.isKeepAlive)

/-- What was written as data. -/
def data? (e : Receipt) : Option (Batch Nat) := if e.parcel.isKeepAlive then none else e.frame?

/-- What a delivery tells as data is what its mark does. -/
theorem delivered?_mark (e : Receipt) : e.mark?.bind WriteMark.delivered? = e.data? := by
  unfold mark? data?
  cases e.frame? with
  | none => cases e.parcel.isKeepAlive <;> rfl
  | some frame => cases e.parcel.isKeepAlive <;> rfl

end Receipt

/-- Only writes that have succeeded deliver data. -/
theorem WriteMark.delivered_filter_isWritten (log : List WriteMark) :
    delivered (log.filter isWritten) = delivered log := by
  unfold delivered
  rw [List.filterMap_filter]
  refine List.filterMap_congr fun m _ => ?_
  cases m with
  | written => rfl
  | begun | crashed => rfl

/-- What a subscriber knows of the writes to it follows from those that have succeeded. -/
theorem Lane.Ledger.sameRecord {l l' : Lane} (h : l.Ledger) (h' : l'.Ledger)
    (hw : l'.log.filter WriteMark.isWritten = l.log.filter WriteMark.isWritten) :
    l.session.SameRecord l'.session := by
  have hdelivered : WriteMark.delivered l'.log = WriteMark.delivered l.log := by
    rw [← WriteMark.delivered_filter_isWritten, hw, WriteMark.delivered_filter_isWritten]
  have hposition : l'.session.cursor.position = l.session.cursor.position := by
    rw [h'.cursor, h.cursor, hdelivered]
  refine ⟨congrArg Cursor.mk hposition, ?_, ?_⟩
  · rw [h'.lastSent, h.lastSent, hdelivered]
  · rw [h'.writes, h.writes, List.countP_eq_length_filter, hw, List.countP_eq_length_filter]

namespace Registry

/-- The writes to a subscriber that have succeeded, the latest first. -/
def written (r : Registry) (s : SessionId) : List WriteMark := (r.log s).filter WriteMark.isWritten

/-- What leads from `r` to `v` may be anything but a write to the subscriber that succeeds; in a run
it is all that happens between two such writes (`spares_run`). -/
structure Spares (s : SessionId) (r v : Registry) : Prop where
  policy : v.config.stalePolicy = r.config.stalePolicy
  process : v.hooks.process = r.hooks.process
  record : ∀ x, r.session? s = some x → ∃ y, v.session? s = some y ∧ x.SameRecord y
  written : v.written s = r.written s

/-- A delivery under way comes to its end, and its write succeeds. Before each of its steps anything
may happen that spares the subscriber. -/
inductive Completes (s : SessionId) (p : Party) : Registry → Delivery → Registry → Prop
  | written {r u v : Registry} {d : Delivery} (hb : Spares s r u)
      (h : u.deliveryStep s p d = (v, .done .written)) : Completes s p r d v
  | goesOn {r u w v : Registry} {d d' : Delivery} (hb : Spares s r u)
      (h : u.deliveryStep s p d = (w, .running d')) (t : Completes s p w d' v) : Completes s p r d v
  /-- The write was held, and is let go on. -/
  | released {r v : Registry} {d d' : Delivery} (now : Nat) (o : WriteOutcome)
      (h : release? now o d = some d') (t : Completes s p r d' v) : Completes s p r d v

/-- A subscriber gets one delivery, which skips its batch as stale or is written. -/
inductive Receives (s : SessionId) (r : Registry) : Receipt → Registry → Prop
  | skips {v : Registry} {p : Party} {kind : DeliveryKind} {b : Batch Nat} {x y : Session}
      (hx : r.session? s = some x) (h : r.beginDelivery s p b kind = (v, .done .stale))
      (hy : v.session? s = some y) : Receives s r ⟨⟨kind, b⟩, x.cursor, none, y.cursor⟩ v
  | writes {u v : Registry} {p : Party} {kind : DeliveryKind} {b : Batch Nat} {x y : Session}
      {d : Delivery} (hx : r.session? s = some x) (h : r.beginDelivery s p b kind = (u, .running d))
      (t : Completes s p u d v) (hy : v.session? s = some y) :
      Receives s r ⟨⟨kind, b⟩, x.cursor, some d.frame, y.cursor⟩ v

/-- A subscriber gets deliveries one after the other, by any parties. Before each of them, and after
the last one, anything may happen that spares the subscriber. -/
inductive Series (s : SessionId) : Registry → List Receipt → Registry → Prop
  | rest {r v : Registry} (hb : Spares s r v) : Series s r [] v
  | next {r u w v : Registry} {e : Receipt} {es : List Receipt} (hb : Spares s r u)
      (h : Receives s u e w) (t : Series s w es v) : Series s r (e :: es) v

variable {r u v w : Registry} {s : SessionId} {x y : Session} {p : Party} {b : Batch Nat}
  {kind : DeliveryKind} {d d' : Delivery} {e : Receipt} {es : List Receipt}

/-! ### What spares a subscriber -/

namespace Spares

theorem refl (s : SessionId) (r : Registry) : Spares s r r :=
  ⟨rfl, rfl, fun x hx => ⟨x, hx, .refl x⟩, rfl⟩

theorem trans (h : Spares s r u) (h' : Spares s u v) : Spares s r v where
  policy := h'.policy.trans h.policy
  process := h'.process.trans h.process
  record x hx := by
    obtain ⟨y, hy, hsame⟩ := h.record x hx
    obtain ⟨z, hz, hsame'⟩ := h'.record y hy
    exact ⟨z, hz, hsame.trans hsame'⟩
  written := h'.written.trans h.written

theorem update (h : Spares s r u) {f : Session → Session} (hf : ∀ x : Session, x.SameRecord (f x)) :
    Spares s r (u.update s f) := by
  refine h.trans ⟨rfl, rfl, fun x hx => ⟨f x, session?_update hx f, hf x⟩, rfl⟩

theorem note (h : Spares s r u) {e : Event}
    (he : ∀ m, e.mark? s = some m → m.isWritten = false) : Spares s r (u.note e) := by
  refine h.trans ⟨rfl, rfl, fun x hx => ⟨x, hx, .refl x⟩, ?_⟩
  unfold Registry.written Registry.log
  cases hm : e.mark? s with
  | none => exact congrArg (List.filter _) (List.filterMap_cons_none hm)
  | some m =>
    have hlog : (u.note e).history.filterMap (·.mark? s) =
        m :: u.history.filterMap (·.mark? s) := List.filterMap_cons_some hm
    rw [hlog, List.filter_cons_of_neg (by simp [he m hm])]

theorem count (h : Spares s r u) (f : Metrics → Metrics) : Spares s r (u.count f) :=
  ⟨h.policy, h.process, h.record, h.written⟩

theorem detach (h : Spares s r u) (reason : RemovalReason) : Spares s r (u.detach s reason).1 := by
  rcases u.present_or_gone s with ⟨x, hx, hstage⟩ | hgone
  · obtain ⟨es, hes, hdetach⟩ := detach_eq hx hstage reason
    rw [hdetach]
    refine h.trans ⟨rfl, rfl, fun y hy => ?_, ?_⟩
    · obtain rfl := Option.some.inj (hx.symm.trans hy)
      exact ⟨x.remove, session?_put_self hx x.remove es, rfl, rfl, rfl⟩
    · exact congrArg (List.filter _) (log_put_of_unmarked u s x.remove fun e he => hes e he s)
  · rw [detach_of_removed hgone]
    exact h

theorem callAfter (h : Spares s r u) : Spares s r (u.callAfter s).1 := by
  unfold Registry.callAfter
  split
  · exact h
  · exact h.note nofun

theorem finishDelivery (h : Spares s r u) (o : DeliveryOutcome) :
    Spares s r (u.finishDelivery s o).1 := h.note nofun

theorem sink (h : Spares s r u) (k : Sink) :
    Spares s r (u.update s fun x => { x with sink := k }) := h.update fun _ => ⟨rfl, rfl, rfl⟩

end Spares

/-- Whatever happens in a run spares a subscriber, as long as no write to it succeeds. -/
theorem spares_run {config : Config} {hooks : Hooks} {before : List Action} (actions : List Action)
    (hr : r = (new config hooks).run before) (hwritten : (r.run actions).written s = r.written s) :
    Spares s r (r.run actions) := by
  have hsettled : Settled (.any config hooks True) r := hr ▸ settled_any_run config hooks before
  have hreaches := reaches_any_run hsettled actions
  have hafter := hreaches.settled.sound
  refine ⟨hafter.policy.trans hsettled.sound.policy.symm,
    hafter.process.trans hsettled.sound.process.symm, fun z hz => ?_, hwritten⟩
  have hledger : Lane.Ledger ⟨z, r.posts s, r.log s⟩ := by
    subst hr
    exact ledger_of_run config hooks before hz
  obtain ⟨y, hy, hkept⟩ := hreaches.shifts.lane_keep (fun _ _ _ h t => h.turn t) hsettled.sound hz
    hledger
  exact ⟨y, hy, hledger.sameRecord hkept hwritten⟩

/-! ### Single steps -/

/-- The beginning of a delivery records nothing. -/
theorem spares_beginDelivery : Spares s r (r.beginDelivery s p b kind).1 := by
  unfold beginDelivery
  split
  · exact .refl s r
  · rename_i x hx
    dsimp only
    split
    · have hskipped : Spares s r (r.note (.staleSkipped (r.nameOf s) kind b x.cursor.position)) :=
        (Spares.refl s r).note nofun
      exact (hskipped.count _).finishDelivery .stale
    · refine ((Spares.refl s r).sink (x.sink.startWrite r.now p).1).note fun m hm => ?_
      rw [Event.mark?, Option.ite_none_right_eq_some] at hm
      cases hm.2
      rfl

theorem spares_writeFailed (e : SinkError) : Spares s r (r.writeFailed s d e).1 := by
  have hnoted : Spares s r (r.note (.writeFailed (r.nameOf s) d.kind e)) :=
    (Spares.refl s r).note nofun
  have hdetached := (hnoted.count (·.sinkFailure d.kind)).detach .sinkFailure
  unfold writeFailed
  dsimp only
  rcases hdetach : Registry.detach _ s .sinkFailure with ⟨v, found⟩
  rw [hdetach] at hdetached
  cases found with
  | true => exact hdetached.callAfter
  | false => exact hdetached.finishDelivery .failed

/-- A write that has failed does not succeed any more. -/
theorem writeFailed_not_written (e : SinkError) :
    (r.writeFailed s d e).2 ≠ .done .written ∧ ∀ d', (r.writeFailed s d e).2 = .running d' →
      d'.keepAlive = d.keepAlive ∧ d'.frame = d.frame := by
  unfold writeFailed
  dsimp only
  split
  · refine ⟨nofun, fun d' hd' => ?_⟩
    cases hd'
    exact ⟨rfl, rfl⟩
  · exact ⟨nofun, nofun⟩

/-- What a write that succeeds makes of what is recorded of a subscriber. -/
structure Records (s : SessionId) (d : Delivery) (r v : Registry) : Prop where
  policy : v.config.stalePolicy = r.config.stalePolicy
  process : v.hooks.process = r.hooks.process
  record : ∀ x, r.session? s = some x → ∃ y, v.session? s = some y ∧ (x.served d).SameRecord y
  written : v.written s = .written d.keepAlive d.frame :: r.written s

theorem Records.of_spares (h : Spares s r u) (h' : Records s d u v) : Records s d r v where
  policy := h'.policy.trans h.policy
  process := h'.process.trans h.process
  record x hx := by
    obtain ⟨y, hy, hsame⟩ := h.record x hx
    obtain ⟨z, hz, hserved⟩ := h'.record y hy
    exact ⟨z, hz, (hsame.served rfl rfl).trans hserved⟩
  written := h'.written.trans (by rw [h.written])

/-- Only what is written matters, and whether it is data. -/
theorem Records.congr (h : Records s d' r v) (hf : d'.frame = d.frame)
    (hk : d'.keepAlive = d.keepAlive) : Records s d r v where
  policy := h.policy
  process := h.process
  record x hx := by
    obtain ⟨y, hy, hserved⟩ := h.record x hx
    exact ⟨y, hy, ((Session.SameRecord.refl x).served hf hk).trans hserved⟩
  written := by rw [h.written, hf, hk]

theorem session?_writeSucceeded (hx : r.session? s = some x) :
    (r.writeSucceeded s d).1.session? s = some (x.served d) := by
  unfold writeSucceeded Session.served
  cases d.keepAlive with
  | true => exact session?_update hx _
  | false => exact session?_update (session?_update hx _) _

theorem records_writeSucceeded : Records s d r (r.writeSucceeded s d).1 where
  policy := by
    unfold writeSucceeded
    cases d.keepAlive <;> rfl
  process := by
    unfold writeSucceeded
    cases d.keepAlive <;> rfl
  record x hx := ⟨x.served d, session?_writeSucceeded hx, .refl _⟩
  written := by
    have hhistory : ∃ e who, (r.writeSucceeded s d).1.history = e ::
        .writeSucceeded who d.kind d.keepAlive d.frame :: r.history ∧ e.mark? s = none ∧
        who.id = s := by
      unfold writeSucceeded
      cases d.keepAlive with
      | true => exact ⟨_, _, rfl, rfl, rfl⟩
      | false => exact ⟨_, _, rfl, rfl, rfl⟩
    obtain ⟨e, who, hhistory, he, hwho⟩ := hhistory
    have hmark : Event.mark? s (.writeSucceeded who d.kind d.keepAlive d.frame) =
        some (.written d.keepAlive d.frame) := if_pos hwho
    rw [Registry.written, log, hhistory, List.filterMap_cons_none he,
      List.filterMap_cons_some hmark]
    rfl

/-- A delivery that goes on records nothing until its write succeeds. -/
theorem deliveryStep_cases (hx : r.session? s = some x) :
    (∀ d', (r.deliveryStep s p d).2 = .running d' → Spares s r (r.deliveryStep s p d).1 ∧
      d'.keepAlive = d.keepAlive ∧ d'.frame = d.frame) ∧
    ((r.deliveryStep s p d).2 = .done .written → Records s d r (r.deliveryStep s p d).1) := by
  unfold deliveryStep
  cases d.point with
  | writing point =>
    rw [hx]
    dsimp only
    rcases x.sink.step r.now p d.frame point with ⟨sink, progress⟩
    have hsink := (Spares.refl s r).sink sink
    cases progress with
    | running point' =>
      refine ⟨?_, nofun⟩
      rintro d' hd'
      cases hd'
      exact ⟨hsink, rfl, rfl⟩
    | crashed => exact ⟨nofun, nofun⟩
    | done result =>
      have hcounted := hsink.count (·.writeTook d.kind (.ofMillis (r.now - d.begun)))
      cases result with
      | ok _ => exact ⟨nofun, fun _ => .of_spares hcounted records_writeSucceeded⟩
      | error e =>
        refine ⟨fun d' hd' => ?_, fun hwritten => absurd hwritten (writeFailed_not_written e).1⟩
        exact ⟨hcounted.trans (spares_writeFailed e), (writeFailed_not_written e).2 d' hd'⟩
  | removing hook =>
    dsimp only
    cases hook.step r.now with
    | running hook' =>
      refine ⟨?_, nofun⟩
      rintro d' hd'
      cases hd'
      exact ⟨.refl s r, rfl, rfl⟩
    | crashed => exact ⟨nofun, nofun⟩
    | done result => exact ⟨nofun, nofun⟩

/-! ### One delivery -/

theorem Completes.records (h : Completes s p r d v) (hx : r.session? s = some x) :
    Records s d r v := by
  -- along the steps of the delivery, of which only the last one records something
  induction h generalizing x with
  | written hb h =>
    obtain ⟨y, hy, -⟩ := hb.record x hx
    have hstep := (deliveryStep_cases hy).2 (congrArg Prod.snd h)
    rw [h] at hstep
    exact .of_spares hb hstep
  | goesOn hb h t ih =>
    obtain ⟨y, hy, -⟩ := hb.record x hx
    obtain ⟨hspares, hkeep, hframe⟩ := (deliveryStep_cases hy).1 _ (congrArg Prod.snd h)
    rw [h] at hspares
    obtain ⟨z, hz, -⟩ := hspares.record y hy
    exact .of_spares (hb.trans hspares) ((ih hz).congr hframe hkeep)
  | released now o h t ih =>
    obtain ⟨hframe, hkeep, -⟩ := release?_some h
    exact (ih hx).congr hframe hkeep

/-- Whether a registry may send a frame to a subscriber in place of a batch. -/
def Sends (r : Registry) (b frame : Batch Nat) : Prop := ∃ z, frame = r.hooks.process z b

/-- What a delivery makes of a subscriber: nothing if its batch is stale; a keep-alive is written
whatever the cursor, and counts as a write; data is written and recorded. -/
inductive Accounted (policy : StalePolicy) (sends : Batch Nat → Batch Nat → Prop)
    (x : Session) (e : Receipt) (y : Session) : Prop
  | stale (hk : e.parcel.isKeepAlive = false)
      (hstale : x.cursor.isStale policy e.parcel.batch.ids = true) (hframe : e.frame? = none)
      (hsame : x.SameRecord y)
  | keepAlive {frame : Batch Nat} (hk : e.parcel.isKeepAlive = true)
      (hframe : e.frame? = some frame) (hsent : sends e.parcel.batch frame)
      (hcursor : y.cursor = x.cursor) (hlast : y.lastSent = x.lastSent)
      (hwrites : y.writes = x.writes + 1)
  | data {frame : Batch Nat} (hk : e.parcel.isKeepAlive = false)
      (hfresh : x.cursor.isStale policy e.parcel.batch.ids = false)
      (hframe : e.frame? = some frame) (hsent : sends e.parcel.batch frame)
      (hcursor : y.cursor = x.cursor.follow frame) (hlast : y.lastSent = some frame)
      (hwrites : y.writes = x.writes + 1)

theorem Accounted.of_sameRecord {policy : StalePolicy} {sends : Batch Nat → Batch Nat → Prop}
    {z : Session} (hsame : x.SameRecord z) (h : Accounted policy sends z e y) :
    Accounted policy sends x e y := by
  cases h with
  | stale hk hstale hframe h =>
    rw [hsame.cursor] at hstale
    exact .stale hk hstale hframe (hsame.trans h)
  | keepAlive hk hframe hsent hcursor hlast hwrites =>
    rw [hsame.cursor] at hcursor
    rw [hsame.lastSent] at hlast
    rw [hsame.writes] at hwrites
    exact .keepAlive hk hframe hsent hcursor hlast hwrites
  | data hk hfresh hframe hsent hcursor hlast hwrites =>
    rw [hsame.cursor] at hfresh hcursor
    rw [hsame.writes] at hwrites
    exact .data hk hfresh hframe hsent hcursor hlast hwrites

/-- What a subscriber has after one delivery. -/
structure Gets (s : SessionId) (r : Registry) (x : Session) (e : Receipt) (v : Registry)
    (y : Session) : Prop where
  policy : v.config.stalePolicy = r.config.stalePolicy
  process : v.hooks.process = r.hooks.process
  session : v.session? s = some y
  found : e.found = x.cursor
  left : e.left = y.cursor
  written : v.written s = e.mark?.toList ++ r.written s
  accounted : Accounted r.config.stalePolicy r.Sends x e y

theorem Gets.of_spares {z : Session} (h : Spares s r u) (hsame : x.SameRecord z)
    (h' : Gets s u z e v y) : Gets s r x e v y where
  policy := h'.policy.trans h.policy
  process := h'.process.trans h.process
  session := h'.session
  found := h'.found.trans hsame.cursor
  left := h'.left
  written := h'.written.trans (by rw [h.written])
  accounted := by
    have hsends : u.Sends = r.Sends := by
      unfold Sends
      rw [h.process]
    have haccounted := h'.accounted
    rw [h.policy, hsends] at haccounted
    exact haccounted.of_sameRecord hsame

/-- A delivery skips its batch if that is stale data, and otherwise begins to write. -/
theorem beginDelivery_cases (hx : r.session? s = some x) (b : Batch Nat) (kind : DeliveryKind) :
    (Parcel.isKeepAlive ⟨kind, b⟩ = false ∧ r.isStale x b = true ∧
        (r.beginDelivery s p b kind).2 = .done .stale) ∨
      (Parcel.isKeepAlive ⟨kind, b⟩ = true ∨ r.isStale x b = false) ∧
        ∃ d, (r.beginDelivery s p b kind).2 = .running d ∧
          d.keepAlive = Parcel.isKeepAlive ⟨kind, b⟩ ∧ d.frame = r.hooks.process x b := by
  by_cases hpass : Parcel.isKeepAlive ⟨kind, b⟩ = true ∨ r.isStale x b = false
  · rw [beginDelivery_of_fresh hx rfl hpass]
    exact .inr ⟨hpass, _, rfl, rfl, rfl⟩
  · obtain ⟨hkeep, hstale⟩ := not_or.mp hpass
    have hdata : Parcel.isKeepAlive ⟨kind, b⟩ = false := Bool.eq_false_iff.mpr hkeep
    have hold : r.isStale x b = true := eq_true_of_ne_false hstale
    refine .inl ⟨hdata, hold, ?_⟩
    rw [beginDelivery_of_stale hx hdata hold]
    rfl

theorem Receives.gets (h : Receives s r e v) (hx : r.session? s = some x) :
    ∃ y, Gets s r x e v y := by
  cases h with
  | @skips _ p kind b z y hz h hy =>
    obtain rfl := Option.some.inj (hx.symm.trans hz)
    have hspares : Spares s r (r.beginDelivery s p b kind).1 := spares_beginDelivery
    have hcases := beginDelivery_cases (p := p) hx b kind
    rw [h] at hspares hcases
    obtain ⟨y', hy', hsame⟩ := hspares.record x hx
    obtain rfl := Option.some.inj (hy'.symm.trans hy)
    obtain ⟨hdata, hstale, -⟩ | ⟨-, d, hd, -⟩ := hcases
    · exact ⟨y', hspares.policy, hspares.process, hy, rfl, rfl, hspares.written,
        .stale hdata hstale rfl hsame⟩
    · cases hd
  | @writes u _ p kind b z y d hz h t hy =>
    obtain rfl := Option.some.inj (hx.symm.trans hz)
    have hspares : Spares s r (r.beginDelivery s p b kind).1 := spares_beginDelivery
    have hcases := beginDelivery_cases (p := p) hx b kind
    rw [h] at hspares hcases
    obtain ⟨-, -, hd⟩ | ⟨hpass, d', hd, hkeep, hframe⟩ := hcases
    · cases hd
    obtain rfl := Progress.running.inj hd
    obtain ⟨x', hx', -⟩ := hspares.record x hx
    have hrecords := Records.of_spares hspares (t.records hx')
    obtain ⟨y', hy', hserved⟩ := hrecords.record x hx
    obtain rfl := Option.some.inj (hy'.symm.trans hy)
    refine ⟨y', hrecords.policy, hrecords.process, hy, rfl, rfl, ?_, ?_⟩
    · rw [hrecords.written, hkeep]
      rfl
    · unfold Session.served at hserved
      rw [hkeep, hframe] at hserved
      cases hk : Parcel.isKeepAlive ⟨kind, b⟩ with
      | true =>
        rw [hk, if_pos rfl] at hserved
        exact .keepAlive hk (congrArg some hframe) ⟨x, rfl⟩ hserved.cursor hserved.lastSent
          hserved.writes
      | false =>
        rw [hk] at hserved hpass
        exact .data hk (hpass.resolve_left nofun) (congrArg some hframe) ⟨x, rfl⟩ hserved.cursor
          hserved.lastSent hserved.writes

/-! ### Whole series -/

/-- What deliveries one after the other make of a subscriber. -/
inductive Accounts (policy : StalePolicy) (sends : Batch Nat → Batch Nat → Prop) :
    Session → List Receipt → Session → Prop
  | nil {x y : Session} (hsame : x.SameRecord y) : Accounts policy sends x [] y
  | cons {x y z : Session} {e : Receipt} {es : List Receipt} (hfound : e.found = x.cursor)
      (hleft : e.left = y.cursor) (h : Accounted policy sends x e y)
      (t : Accounts policy sends y es z) : Accounts policy sends x (e :: es) z

namespace Series

/-- A series goes on where its first delivery has left the subscriber. -/
theorem exists_gets (h : Series s r (e :: es) v) (hx : r.session? s = some x) :
    ∃ w y, Gets s r x e w y ∧ Series s w es v := by
  cases h with
  | @next _ u w _ _ _ hb hreceives t =>
    obtain ⟨z, hz, hsame⟩ := hb.record x hx
    obtain ⟨y, hgets⟩ := hreceives.gets hz
    exact ⟨w, y, .of_spares hb hsame hgets, t⟩

/-- What a subscriber knows after a series follows from its deliveries. -/
theorem accounts (h : Series s r es v) (hx : r.session? s = some x) :
    ∃ y, v.session? s = some y ∧ Accounts r.config.stalePolicy r.Sends x es y := by
  induction es generalizing r x with
  | nil =>
    cases h with
    | rest hb =>
      obtain ⟨y, hy, hsame⟩ := hb.record x hx
      exact ⟨y, hy, .nil hsame⟩
  | cons e es ih =>
    obtain ⟨w, y, hgets, hrest⟩ := h.exists_gets hx
    obtain ⟨z, hz, haccounts⟩ := ih hrest hgets.session
    have hsends : w.Sends = r.Sends := by
      unfold Sends
      rw [hgets.process]
    rw [hgets.policy, hsends] at haccounts
    exact ⟨z, hz, .cons hgets.found hgets.left hgets.accounted haccounts⟩

/-- The log of the writes that succeeded tells what was written in a series. -/
theorem written (h : Series s r es v) (hx : r.session? s = some x) :
    v.written s = (es.filterMap Receipt.mark?).reverse ++ r.written s := by
  induction es generalizing r x with
  | nil =>
    cases h with
    | rest hb => exact hb.written
  | cons e es ih =>
    obtain ⟨w, _, hgets, hrest⟩ := h.exists_gets hx
    have hmarks : (e :: es).filterMap Receipt.mark? =
        e.mark?.toList ++ es.filterMap Receipt.mark? := by
      cases hm : e.mark? with
      | none => exact List.filterMap_cons_none hm
      | some m => exact List.filterMap_cons_some hm
    have hreverse : e.mark?.toList.reverse = e.mark?.toList := by
      cases e.mark? <;> rfl
    rw [ih hrest hgets.session, hgets.written, hmarks, List.reverse_append, hreverse,
      List.append_assoc]

/-- The data delivered in a series comes on top of what was delivered before. -/
theorem delivered (h : Series s r es v) (hx : r.session? s = some x) :
    WriteMark.delivered (v.log s) =
      (es.filterMap Receipt.data?).reverse ++ WriteMark.delivered (r.log s) := by
  have hdata : WriteMark.delivered (es.filterMap Receipt.mark?) = es.filterMap Receipt.data? := by
    unfold WriteMark.delivered
    rw [List.filterMap_filterMap]
    exact List.filterMap_congr fun e _ => e.delivered?_mark
  have hlog (w : Registry) : WriteMark.delivered (w.log s) = WriteMark.delivered (w.written s) :=
    (WriteMark.delivered_filter_isWritten (w.log s)).symm
  rw [hlog v, hlog r, h.written hx, ← hdata]
  unfold WriteMark.delivered
  rw [List.filterMap_append, List.filterMap_reverse]

end Series

/-! ### Series can be had -/

/-- A write that is to succeed does, and leaves the sink as it is. -/
theorem deliveryStep_of_playing_ok {moment : Nat} (hx : r.session? s = some x)
    (hpoint : d.point = .writing (.playing moment .ok)) :
    ∃ v y, r.deliveryStep s p d = (v, .done .written) ∧ v.session? s = some y ∧
      y.sink = x.sink := by
  have hsink (z : Session) : (z.served d).sink = z.sink := by
    unfold Session.served
    cases d.keepAlive <;> rfl
  let u := (r.update s fun z => { z with sink := x.sink }).count
    (·.writeTook d.kind (.ofMillis (r.now - d.begun)))
  have hu : u.session? s = some { x with sink := x.sink } := session?_update hx _
  refine ⟨(u.writeSucceeded s d).1, _, ?_, session?_writeSucceeded hu, hsink _⟩
  unfold deliveryStep
  rw [hpoint, hx]
  rfl

/-- A sink that has nothing planned lets the write of any parcel succeed. -/
theorem exists_receives (hx : r.session? s = some x) (hsink : x.sink = .scripted []) (q : Parcel) :
    ∃ e v y, Receives s r e v ∧ e.parcel = q ∧ v.session? s = some y ∧
      y.sink = .scripted [] := by
  obtain ⟨kind, b⟩ := q
  by_cases hpass : Parcel.isKeepAlive ⟨kind, b⟩ = true ∨ r.isStale x b = false
  · obtain ⟨u, d, hbegin, hu, hpoint⟩ : ∃ u d, r.beginDelivery s (.call 0) b kind =
        (u, .running d) ∧ u.session? s = some { x with sink := .scripted [] } ∧
        d.point = .writing (.playing r.now .ok) := by
      have hfresh := beginDelivery_of_fresh (p := .call 0) hx rfl hpass
      rw [hsink] at hfresh
      exact ⟨_, _, hfresh, session?_update hx _, rfl⟩
    obtain ⟨v, y, hstep, hy, hidle⟩ := deliveryStep_of_playing_ok (p := .call 0) hu hpoint
    exact ⟨_, v, y, .writes hx hbegin (.written (.refl s u) hstep) hy, rfl, hy, hidle⟩
  · obtain ⟨hkeep, hstale⟩ := not_or.mp hpass
    have hskip := beginDelivery_of_stale (p := .call 0) hx (Bool.eq_false_iff.mpr hkeep)
      (eq_true_of_ne_false hstale)
    exact ⟨_, _, x, .skips hx hskip hx, rfl, hx, hsink⟩

theorem exists_series (hx : r.session? s = some x) (hsink : x.sink = .scripted [])
    (ps : List Parcel) : ∃ es v, Series s r es v ∧ es.map Receipt.parcel = ps := by
  induction ps generalizing r x with
  | nil => exact ⟨[], r, .rest (.refl s r), rfl⟩
  | cons q ps ih =>
    obtain ⟨e, w, y, hreceives, hparcel, hy, hidle⟩ := exists_receives hx hsink q
    obtain ⟨es, v, hseries, hparcels⟩ := ih hy hidle
    exact ⟨e :: es, v, .next (.refl s r) hreceives hseries, by
      rw [List.map_cons, hparcel, hparcels]⟩

end Registry

end Multicast
