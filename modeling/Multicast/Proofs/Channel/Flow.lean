import Multicast.Proofs.Channel.Pipe

/-! Deliveries to a subscriber with a channel, as they go: the delivery of one party begins a write,
waits for its turn at the channel, sends its frame or is refused. Whatever else the party does on
the way leaves the channel alone. -/

namespace Multicast

namespace Outlet

/-- What a party with a write under way, or with none, does to the channel of a subscriber. -/
inductive Flow (processed : Batch Nat → Prop) (p : Party) (o : Outlet) :
    Option Delivery → Outlet → Option Delivery → Prop
  | still (w : Option Delivery) : Flow processed p o w o w
  | begin {c : Channel (Batch Nat)} {d : Delivery} (hc : o.sink = some (.channel c))
      (hd : d.point = .writing .sending) (hframe : processed d.frame) :
      Flow processed p o none { o with sink := some (.channel (c.ask p)) } (some d)
  | send {c : Channel (Batch Nat)} {d : Delivery} (hc : o.sink = some (.channel c))
      (hopen : c.closed = false) (hroom : c.buffer.length < c.capacity) :
      Flow processed p o (some d) { o with
        sink := some (.channel (c.send p d.frame).1)
        written := .written d.keepAlive d.frame :: o.written } none
  | refuse {c : Channel (Batch Nat)} {d : Delivery} (hc : o.sink = some (.channel c))
      (hclosed : c.closed = true) :
      Flow processed p o (some d) { o with
        sink := some (.channel (c.send p d.frame).1)
        failures := .closed :: o.failures } none

/-- What a party does to the channel of a subscriber when it gives up. -/
inductive GivesUp (p : Party) (o : Outlet) : Option Delivery → Outlet → Prop
  | idle : GivesUp p o none o
  | giveUp {c : Channel (Batch Nat)} (w : Option Delivery) (hc : o.sink = some (.channel c)) :
      GivesUp p o w { o with sink := some (.channel (c.giveUp p)) }

end Outlet

open Outlet (Flow GivesUp)

/-- Whether a write, if one is under way, is one to a channel. -/
def Sending (w : Option Delivery) : Prop := ∀ d, w = some d → d.point = .writing .sending

namespace Registry

variable {r u v : Registry} {s t : SessionId} {x : Session} {p : Party} {b : Batch Nat}
  {kind : DeliveryKind} {d : Delivery} {e : Direct} {c : Channel (Batch Nat)}

/-- Whether a frame is what some batch is processed into. -/
def Processed (r : Registry) (frame : Batch Nat) : Prop := ∃ z b, frame = r.hooks.process z b

/-! ### One delivery -/

theorem outlet_sink (hx : r.session? s = some x) (k : Sink) :
    (r.update s fun x => { x with sink := k }).outlet s = { r.outlet s with sink := some k } := by
  rw [outlet_of_session? (session?_update hx _), outlet_of_session? hx]
  rfl

theorem outlet_writeBegun {who : SessionName} {keepAlive : Bool} {frame : Batch Nat} :
    (r.note (.writeBegun who kind keepAlive frame)).outlet s = r.outlet s := by
  refine outlet_note_of_unwritten (fun m hm => ?_) rfl
  obtain rfl := Option.some.inj (Option.ite_none_right_eq_some.mp hm).2
  rfl

theorem outlet_told_failed {e : SinkError} :
    (r.note (.writeFailed (r.nameOf s) kind e)).outlet s =
      { r.outlet s with failures := e :: r.failures s } := by
  have hfailures : (r.note (.writeFailed (r.nameOf s) kind e)).failures s = e :: r.failures s :=
    List.filterMap_cons_some (if_pos rfl)
  rw [outlet, hfailures, written_note_of_unmarked rfl]
  rfl

theorem outlet_writeSucceeded (hx : r.session? s = some x) : (r.writeSucceeded s d).1.outlet s =
    { r.outlet s with written := .written d.keepAlive d.frame :: r.written s } := by
  have hfailures : (r.writeSucceeded s d).1.failures s = r.failures s := by
    unfold writeSucceeded
    cases d.keepAlive <;> rfl
  obtain ⟨cursor, lastSent, -, hserved⟩ := x.exists_served_eq d
  rw [outlet_of_session? (session?_writeSucceeded hx), outlet_of_session? hx,
    records_writeSucceeded.written, hfailures, hserved]

theorem outlet_counted_writeSucceeded (hx : r.session? s = some x) {f : Metrics → Metrics} :
    ((r.count f).writeSucceeded s d).1.outlet s =
      { r.outlet s with written := .written d.keepAlive d.frame :: r.written s } := by
  have hcounted : (r.count f).session? s = some x := hx
  exact outlet_writeSucceeded hcounted

theorem write?_writeFailed {e : SinkError} : (r.writeFailed s d e).2.post.write? = none := by
  unfold writeFailed
  dsimp only
  split <;> rfl

theorem flow_beginDelivery (hx : r.session? s = some x) (hc : x.sink = .channel c) :
    Flow r.Processed p (r.outlet s) none ((r.beginDelivery s p b kind).1.outlet s)
      (r.beginDelivery s p b kind).2.post.write? := by
  unfold beginDelivery
  rw [hx]
  dsimp only
  split
  · rw [outlet_finishDelivery, outlet_count, outlet_note rfl rfl]
    exact .still none
  · rw [hc, Sink.startWrite]
    dsimp only
    rw [outlet_writeBegun, outlet_sink hx]
    refine .begin ?_ rfl ⟨x, b, rfl⟩
    rw [outlet_of_session? hx, hc]

/-- A write to a channel goes on only when it is done, one way or the other. -/
theorem flow_deliveryStep (hx : r.session? s = some x) (hc : x.sink = .channel c)
    (hsending : Sending (Post.busy d).write?) (hready : r.deliveryReady s p d = true) :
    Flow r.Processed p (r.outlet s) (Post.busy d).write? ((r.deliveryStep s p d).1.outlet s)
      (r.deliveryStep s p d).2.post.write? := by
  have hsink : (r.outlet s).sink = some (.channel c) := by rw [outlet_of_session? hx, hc]
  unfold deliveryReady at hready
  unfold deliveryStep
  cases hpoint : d.point with
  | removing hook =>
    have hidle : (Post.busy d).write? = none := by simp [Post.write?, Delivery.isWriting, hpoint]
    rw [hidle]
    dsimp only
    split
    · exact .still none
    · exact .still none
    · rw [outlet_finishDelivery, outlet_noteReturn (fun _ _ => rfl) fun _ _ => rfl]
      exact .still none
  | writing point =>
    have hwrite : (Post.busy d).write? = some d := by
      simp [Post.write?, Delivery.isWriting, hpoint]
    obtain rfl : point = .sending := by
      have hd := hsending d hwrite
      rw [hpoint] at hd
      exact DeliveryPoint.writing.inj hd
    rw [hpoint, hx] at hready
    dsimp only at hready
    rw [hc] at hready
    rw [hwrite, hx]
    dsimp only
    rw [hc, Sink.step]
    cases hclosed : c.closed with
    | true =>
      have hsend : c.send p d.frame = ((c.send p d.frame).1, false) := by
        rw [Channel.send_of_closed d.frame hclosed]
      have hnow := session?_update hx fun x => { x with sink := .channel (c.send p d.frame).1 }
      rw [hsend]
      dsimp only
      rw [outlet_writeFailed, outlet_told_failed, outlet_count, outlet_sink hx, write?_writeFailed]
      exact .refuse hsink hclosed
    | false =>
      have hsend : c.send p d.frame = ((c.send p d.frame).1, true) := by
        rw [Channel.send_of_open d.frame hclosed]
      have hroom := ((Channel.mayGo_iff_of_open hclosed).mp hready).2
      have hnow := session?_update hx fun x => { x with sink := .channel (c.send p d.frame).1 }
      rw [hsend]
      dsimp only
      rw [outlet_counted_writeSucceeded hnow, outlet_sink hx]
      exact .send hsink hclosed hroom

/-- A delivery to a subscriber with a channel crashes only in the callback after a failed write. -/
theorem crashed_deliveryStep (hx : r.session? s = some x) (hc : x.sink = .channel c)
    (hsending : Sending (Post.busy d).write?) (h : (r.deliveryStep s p d).2 = .crashed) :
    (Post.busy d).write? = none ∧ (r.deliveryStep s p d).1.outlet s = r.outlet s := by
  cases hpoint : d.point with
  | removing hook =>
    refine ⟨by simp [Post.write?, Delivery.isWriting, hpoint], ?_⟩
    unfold deliveryStep at h ⊢
    rw [hpoint] at h ⊢
    dsimp only at h ⊢
    cases hstep : hook.step r.now with
    | crashed => rfl
    | running _ => simp [hstep] at h
    | done _ => simp [hstep, finishDelivery] at h
  | writing point =>
    obtain rfl : point = .sending := by
      have hd := hsending d (by simp [Post.write?, Delivery.isWriting, hpoint])
      rw [hpoint] at hd
      exact DeliveryPoint.writing.inj hd
    unfold deliveryStep at h
    rw [hpoint, hx] at h
    dsimp only at h
    rw [hc, Sink.step] at h
    rcases hsend : c.send p d.frame with ⟨c', taken⟩
    rw [hsend] at h
    cases taken with
    | true => cases h
    | false =>
      dsimp only at h
      unfold writeFailed at h
      dsimp only at h
      split at h <;> cases h

/-! ### Direct deliveries -/

theorem write?_directProgress {o : Registry × Progress Delivery DeliveryOutcome} :
    (directProgress p e o).2.directPost.write? = o.2.post.write? := by
  obtain ⟨w, progress⟩ := o
  cases progress <;> rfl

theorem flow_directStep (hx : r.session? e.session = some x) (hc : x.sink = .channel c)
    (hsending : Sending e.post.write?) (hready : r.directReady p e = true) :
    Flow r.Processed p (r.outlet e.session) e.post.write? ((r.directStep p e).1.outlet e.session)
      (r.directStep p e).2.directPost.write? := by
  unfold directStep
  unfold directReady at hready
  unfold Direct.post at hsending ⊢
  cases hrun : e.delivery with
  | some run =>
    rw [hrun] at hready hsending
    dsimp only at hready hsending ⊢
    rw [outlet_directProgress, write?_directProgress]
    exact flow_deliveryStep hx hc hsending hready
  | none =>
    rw [hx]
    dsimp only
    split
    · rw [outlet_leave]
      exact .still none
    · rw [outlet_directProgress, write?_directProgress]
      exact flow_beginDelivery hx hc

theorem crashed_directStep (hx : r.session? e.session = some x) (hc : x.sink = .channel c)
    (hsending : Sending e.post.write?) (h : (r.directStep p e).2 = .crashed) :
    e.post.write? = none ∧ (r.directStep p e).1.outlet e.session = r.outlet e.session := by
  have hprogress {o : Registry × Progress Delivery DeliveryOutcome}
      (h : (directProgress p e o).2 = .crashed) : o.2 = .crashed := by
    obtain ⟨w, progress⟩ := o
    cases progress with
    | running _ | done _ => cases h
    | crashed => rfl
  unfold directStep at h ⊢
  unfold Direct.post at hsending ⊢
  cases hrun : e.delivery with
  | some run =>
    rw [hrun] at h hsending
    dsimp only at h hsending ⊢
    obtain ⟨hidle, hsame⟩ := crashed_deliveryStep hx hc hsending (hprogress h)
    exact ⟨hidle, outlet_directProgress.trans hsame⟩
  | none =>
    -- nothing crashes where a delivery begins
    rw [hrun, hx] at h
    dsimp only at h
    split at h
    · cases h
    · have hbegin := hprogress h
      unfold beginDelivery at hbegin
      rw [hx] at hbegin
      dsimp only at hbegin
      split at hbegin
      · exact absurd hbegin nofun
      · exact absurd hbegin nofun

theorem exists_of_sink {k : Sink} (h : (r.outlet s).sink = some k) :
    ∃ x, r.session? s = some x ∧ x.sink = k := by
  obtain ⟨x, hx, hk⟩ := Option.map_eq_some_iff.mp h
  exact ⟨x, hx, hk⟩

theorem session_of_directStep {e' : Direct} (h : (r.directStep p e).2 = .running e') :
    e'.session = e.session := by
  have hprogress {o : Registry × Progress Delivery DeliveryOutcome}
      (h : (directProgress p e o).2 = .running e') : e'.session = e.session := by
    obtain ⟨w, progress⟩ := o
    cases progress with
    | running run =>
      cases h
      rfl
    | done _ | crashed => cases h
  unfold directStep at h
  split at h
  · exact hprogress h
  · split at h
    · cases h
    · split at h
      · cases h
      · exact hprogress h

end Registry

end Multicast
