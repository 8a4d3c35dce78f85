import Multicast.Proofs.Cursor
import Multicast.Proofs.Registry.Line

/-! The order in which data is written to one subscriber. Whoever delivers holds the gate, so that a
write of data ends before the next one begins; what was written then stands at or below the cursor,
and what begins stands at or above it. -/

namespace Multicast

/-- A write of data that was begun. -/
structure DataWrite where
  frame : Batch Nat
  crashed : Bool
  deriving DecidableEq, Repr

/-- The writes of data that a log tells of, the latest first. A write that crashes is the latest
one then. -/
def WriteMark.started : List WriteMark → List DataWrite
  | [] => []
  | .begun false frame :: rest => ⟨frame, false⟩ :: started rest
  | .crashed false _ :: rest => (started rest).modifyHead fun w => { w with crashed := true }
  | _ :: rest => started rest

namespace DataWrite

/-- Whether the write `v` of data may come after the write `w`: always after one that has
crashed. -/
def Before (policy : StalePolicy) (w v : DataWrite) : Prop :=
  w.crashed = true ∨
    ∃ i j, w.frame.lastId? = some i ∧ v.frame.lastId? = some j ∧ policy.Follows i j

/-- Whether nothing that is written to the subscriber from now on can come too early after the
write: it has crashed, or the subscriber is removed, or the cursor has passed it. -/
def Covered (x : Session) (w : DataWrite) : Prop :=
  w.crashed = true ∨ x.stage = .removed ∨
    ∃ i p, w.frame.lastId? = some i ∧ x.cursor.position = some p ∧ i ≤ p

end DataWrite

/-- Published batches are in the order of their ids, and subscribers get frames with these ids. -/
structure Terms.KeepOrder (T : Terms) : Prop where
  ascending : ∀ b, T.admits b → b.ids.Pairwise (· ≤ ·)
  sameIds : ∀ x b, (T.process x b).ids = b.ids

/-- A frame that may be written as data has an id that may come after the position of the
cursor. -/
theorem Terms.KeepOrder.follows {T : Terms} (h : T.KeepOrder) {x : Session} {frame : Batch Nat}
    (ha : T.Allows x frame) :
    ∃ j, frame.lastId? = some j ∧ ∀ p, x.cursor.position = some p → T.policy.Follows p j := by
  obtain ⟨b, hb, hping, hfresh, rfl⟩ := ha
  have hne : b.ids ≠ [] := by
    intro he
    have hitems : b.items = [] := List.map_eq_nil_iff.mp he
    rw [Batch.isPing, hitems] at hping
    cases hping
  refine ⟨b.ids.getLast hne, ?_, ?_⟩
  · rw [Batch.lastId?_eq_getLast?, h.sameIds, List.getLast?_eq_some_getLast hne]
  · intro p hp
    obtain ⟨i, hi, hfollows⟩ := (Cursor.isStale_eq_false_iff _ _ hne).mp hfresh
    have hle := le_getLast_of_pairwise (h.ascending b hb) hne hi
    exact (hfollows p hp).mono hle

namespace Lane

open Function (update)

/-- The data that a party writes. -/
def writing? : Post → Option (Batch Nat)
  | .busy d => if d.writesData then some d.frame else none
  | _ => none

/-- Whether somebody writes the frame as data. -/
def Writes (P : Party → Post) (frame : Batch Nat) : Prop := ∃ p, writing? (P p) = some frame

/-- The writes of data come in order: each may come after those before it, and all that are over
are covered. The one under way is the latest. -/
structure Ordered (T : Terms) (l : Lane) : Prop where
  pairwise : (WriteMark.started l.log).Pairwise fun v w => w.Before T.policy v
  hasId : ∀ w ∈ WriteMark.started l.log, ∃ i, w.frame.lastId? = some i
  covered : (∀ frame, ¬ Writes l.posts frame) →
    ∀ w ∈ WriteMark.started l.log, w.Covered l.session
  pending : ∀ frame, Writes l.posts frame →
    ∃ rest, WriteMark.started l.log = ⟨frame, false⟩ :: rest ∧ ∀ w ∈ rest, w.Covered l.session

variable {T : Terms} {l l' : Lane}

theorem ordered_fresh (request : Subscription) (room : Nat) : (fresh request room).Ordered T := by
  refine ⟨List.Pairwise.nil, nofun, fun _ => nofun, ?_⟩
  rintro frame ⟨p, hp⟩
  cases hp

/-- A change of posts that nobody's writing tells of. -/
theorem writes_update_iff {P : Party → Post} {p : Party} {post : Post}
    (h : writing? post = writing? (P p)) (frame : Batch Nat) :
    Writes (update P p post) frame ↔ Writes P frame := by
  have hq (q : Party) : writing? (update P p post q) = writing? (P q) := by
    by_cases hqp : q = p
    · subst hqp
      rw [Function.update_self, h]
    · rw [Function.update_of_ne hqp]
  simp only [Writes, hq]

/-- Where nobody writes data, a party that begins to is the only one. -/
theorem writes_update_iff_eq {P : Party → Post} (h : ∀ frame, ¬ Writes P frame) (p : Party)
    {d : Delivery} (hd : d.writesData = true) (frame : Batch Nat) :
    Writes (update P p (.busy d)) frame ↔ frame = d.frame := by
  have hbusy : writing? (.busy d) = some d.frame := by simp [writing?, hd]
  constructor
  · rintro ⟨q, hq⟩
    by_cases hqp : q = p
    · subst hqp
      rw [Function.update_self, hbusy] at hq
      exact (Option.some.inj hq).symm
    · rw [Function.update_of_ne hqp] at hq
      exact absurd ⟨q, hq⟩ (h frame)
  · rintro rfl
    exact ⟨p, by rw [Function.update_self, hbusy]⟩

/-- Nobody writes data besides the holder of the gate. -/
theorem Gated.not_writes {x : Session} {P : Party → Post} {log : List WriteMark}
    (h : Gated ⟨x, P, log⟩) {p : Party} (hp : x.queue.gate.holds p = true) {post : Post}
    (hpost : writing? post = none) (frame : Batch Nat) : ¬ Writes (update P p post) frame := by
  rintro ⟨q, hq⟩
  by_cases hqp : q = p
  · subst hqp
    rw [Function.update_self, hpost] at hq
    cases hq
  · rw [Function.update_of_ne hqp] at hq
    cases hpq : P q with
    | away => simp [hpq, writing?] at hq
    | waiting => simp [hpq, writing?] at hq
    | busy d => exact hqp (h.eq_of_holds hpq hp)

/-- A turn in which no write of data begins or ends, and which uncovers nothing. -/
theorem Ordered.quiet {x y : Session} {P P' : Party → Post} {log log' : List WriteMark}
    (h : Ordered T ⟨x, P, log⟩) (hlog : WriteMark.started log' = WriteMark.started log)
    (hw : ∀ frame, Writes P' frame ↔ Writes P frame)
    (hc : ∀ w : DataWrite, w.Covered x → w.Covered y) : Ordered T ⟨y, P', log'⟩ := by
  refine ⟨?_, ?_, ?_, ?_⟩
  · simpa only [hlog] using h.pairwise
  · simpa only [hlog] using h.hasId
  · intro hnone w hmem
    refine hc w (h.covered (fun frame hf => hnone frame ((hw frame).mpr hf)) w ?_)
    simpa only [hlog] using hmem
  · intro frame hf
    obtain ⟨rest, hrest, hcovered⟩ := h.pending frame ((hw frame).mp hf)
    refine ⟨rest, ?_, fun w hmem => hc w (hcovered w hmem)⟩
    simpa only [hlog] using hrest

/-- A write of data begins: nobody else writes, and all before it is covered. -/
theorem Ordered.begin {x y : Session} {P : Party → Post} {log : List WriteMark}
    (h : Ordered T ⟨x, P, log⟩) (hk : T.KeepOrder) (hl : Lawful T ⟨x, P, log⟩)
    (hg : Gated ⟨x, P, log⟩) {p : Party} (hp : P p = .waiting)
    (hold : x.queue.gate.holds p = true) (hc : x.queue.closed = false) {d : Delivery}
    (hd : d.writesData = true) (ha : T.Allows x d.frame)
    (hy : ∀ w : DataWrite, w.Covered x → w.Covered y) :
    Ordered T ⟨y, update P p (.busy d), .begun false d.frame :: log⟩ := by
  -- the holder of the gate is about to write, so nobody else writes
  have hnone (frame : Batch Nat) : ¬ Writes P frame := by
    have hwaiting : writing? .waiting = none := rfl
    have hno := hg.not_writes hold hwaiting frame
    rwa [← hp, Function.update_eq_self] at hno
  have hcovered := h.covered hnone
  have hone := writes_update_iff_eq hnone p (d := d) hd
  obtain ⟨j, hj, hfollows⟩ := hk.follows ha
  refine ⟨List.pairwise_cons.mpr ⟨?_, h.pairwise⟩, ?_,
    ?_, ?_⟩
  · intro w hmem
    -- the cursor has passed every write before, and the new frame may follow the cursor
    rcases hcovered w hmem with hcrash | hremoved | ⟨i, c, hi, hcursor, hle⟩
    · exact .inl hcrash
    · exact absurd hremoved (hl.open_iff.mp hc)
    · exact .inr ⟨i, j, hi, hj, (hfollows c hcursor).of_le hle⟩
  · intro w hmem
    rcases List.mem_cons.mp hmem with rfl | hmem
    · exact ⟨j, hj⟩
    · exact h.hasId w hmem
  · intro hno
    exact absurd ((hone d.frame).mpr rfl) (hno d.frame)
  · intro frame hf
    obtain rfl := (hone frame).mp hf
    exact ⟨_, rfl, fun w hmem => hy w (hcovered w hmem)⟩

/-- A write of data is over: it is covered now, as all before it. -/
theorem Ordered.finish {x y : Session} {P : Party → Post} {log log' : List WriteMark}
    (h : Ordered T ⟨x, P, log⟩) (hg : Gated ⟨x, P, log⟩) {p : Party} {d : Delivery}
    (hp : P p = .busy d) (hd : d.writesData = true) {post : Post} (hpost : writing? post = none)
    {crashed : Bool} (hlog : ∀ rest, WriteMark.started log = ⟨d.frame, false⟩ :: rest →
      WriteMark.started log' = ⟨d.frame, crashed⟩ :: rest)
    (hy : ∀ w : DataWrite, w.Covered x → w.Covered y)
    (hc : ∀ i, d.frame.lastId? = some i → DataWrite.Covered y ⟨d.frame, crashed⟩) :
    Ordered T ⟨y, update P p post, log'⟩ := by
  -- the write that ends is the latest one that was begun
  have hwrites : Writes P d.frame := ⟨p, by simp [hp, writing?, hd]⟩
  obtain ⟨rest, hrest, hcovered⟩ := h.pending d.frame hwrites
  have hpair : (⟨d.frame, false⟩ :: rest).Pairwise fun v w => w.Before T.policy v :=
    hrest ▸ h.pairwise
  have hid : ∀ w ∈ (⟨d.frame, false⟩ : DataWrite) :: rest, ∃ i, w.frame.lastId? = some i :=
    hrest ▸ h.hasId
  have hnew : WriteMark.started log' = ⟨d.frame, crashed⟩ :: rest := hlog rest hrest
  obtain ⟨i, hi⟩ := hid _ List.mem_cons_self
  refine ⟨?_, ?_, ?_, ?_⟩
  · simp only [hnew]
    obtain ⟨hhead, htail⟩ := List.pairwise_cons.mp hpair
    exact List.pairwise_cons.mpr ⟨hhead, htail⟩
  · simp only [hnew]
    intro w hmem
    rcases List.mem_cons.mp hmem with rfl | hmem
    · exact ⟨i, hi⟩
    · exact hid w (List.mem_cons_of_mem _ hmem)
  · intro _
    simp only [hnew]
    intro w hmem
    rcases List.mem_cons.mp hmem with rfl | hmem
    · exact hc i hi
    · exact hy w (hcovered w hmem)
  · intro frame hf
    -- the writer had the gate, so that nobody writes after it
    exact absurd hf (hg.not_writes (hg.holds p d hp) hpost frame)

/-- The cursor has passed a frame that was delivered, and all that it had passed before. -/
theorem DataWrite.covered_recordDelivery {x : Session} (frame : Batch Nat) :
    (∀ w : DataWrite, w.Covered x → w.Covered (x.recordWrite.recordDelivery frame)) ∧
      ∀ i, frame.lastId? = some i →
        DataWrite.Covered (x.recordWrite.recordDelivery frame) ⟨frame, false⟩ := by
  cases hid : frame.lastId? with
  | none =>
    have hcursor : (x.recordWrite.recordDelivery frame).cursor = x.cursor := by
      simp only [Session.recordDelivery, hid]
      rfl
    refine ⟨?_, ?_⟩
    · intro w hw
      unfold DataWrite.Covered
      rw [hcursor]
      exact hw
    · intro i hi
      cases hi
  | some id =>
    have hcursor : (x.recordWrite.recordDelivery frame).cursor.position =
        some (x.cursor.position.elim id (max id)) := by
      simp only [Session.recordDelivery, hid]
      exact Cursor.position_advance x.cursor id
    refine ⟨?_, ?_⟩
    · intro w hw
      rcases hw with hcrash | hremoved | ⟨i, p, hi, hp, hle⟩
      · exact .inl hcrash
      · exact .inr (.inl hremoved)
      · refine .inr (.inr ⟨i, _, hi, hcursor, ?_⟩)
        rw [hp]
        exact Nat.le_trans hle (Nat.le_max_right id p)
    · intro i hi
      obtain rfl := Option.some.inj hi
      refine .inr (.inr ⟨id, _, hid, hcursor, ?_⟩)
      cases x.cursor.position with
      | none => exact Nat.le_refl id
      | some p => exact Nat.le_max_left id p

theorem Ordered.turn (h : l.Ordered T) (hk : T.KeepOrder) (hl : l.Lawful T) (hg : l.Gated)
    (t : Turn T l l') : l'.Ordered T := by
  cases t with
  | adjust | take | work | reclose => exact h.quiet rfl (fun _ => Iff.rfl) (fun _ => id)
  | enqueue b hb hc =>
    rw [Session.enqueue_of_open b hc]
    exact h.quiet rfl (fun _ => Iff.rfl) (fun _ => id)
  | join p hp hc =>
    refine h.quiet rfl (writes_update_iff ?_) (fun _ => id)
    simp [hp, writing?]
  | @leave x P log p hp =>
    -- nobody leaves while it writes data
    refine h.quiet rfl (writes_update_iff ?_) (fun _ => id)
    cases hpost : P p with
    | away => rfl
    | waiting => rfl
    | busy d =>
      have hd : d.writesData = false := by simpa [hpost, Post.mayLeave] using hp
      simp [writing?, hd]
  | begin p d sink hp hold hc hw hd =>
    cases hk' : d.keepAlive with
    | true =>
      refine h.quiet rfl (writes_update_iff ?_) (fun _ => id)
      simp [hp, writing?, Delivery.writesData, hk']
    | false =>
      refine h.begin hk hl hg hp hold hc ?_ (hd hk') (fun _ => id)
      simp [Delivery.writesData, hw, hk']
  | goOn p d d' hp hf hk' hw =>
    refine h.quiet rfl (writes_update_iff ?_) (fun _ => id)
    simp [hp, writing?, Delivery.writesData, hf, hk', hw]
  | succeed p d hp hw =>
    cases hk' : d.keepAlive with
    | true =>
      refine h.quiet rfl (writes_update_iff ?_) (fun _ => id)
      simp [hp, writing?, Delivery.writesData, hk']
    | false =>
      obtain ⟨hkeep, hnew⟩ := DataWrite.covered_recordDelivery d.frame
      refine h.finish hg hp ?_ rfl (fun _ => id) hkeep hnew
      simp [Delivery.writesData, hw, hk']
  | @fall x P log p d d' hp hw hx hd =>
    have hpost : writing? (.busy d') = none := by simp [writing?, Delivery.writesData, hd]
    -- the subscriber is removed, after which nothing is begun
    have hcovered (w : DataWrite) : w.Covered x.remove := .inr (.inl rfl)
    by_cases hwd : d.writesData = true
    · exact h.finish hg hp hwd hpost (fun _ => id) (fun w _ => hcovered w)
        (fun _ _ => hcovered _)
    · refine h.quiet rfl (writes_update_iff ?_) (fun w _ => hcovered w)
      rw [hpost, hp]
      simp [writing?, hwd]
  | settle p d post hp hd hq =>
    have hpost : writing? post = none := by
      rcases hq with rfl | ⟨d', rfl, hd'⟩
      · rfl
      · simp [writing?, Delivery.writesData, hd']
    by_cases hwd : d.writesData = true
    · -- the subscriber is removed already, after which nothing is begun
      refine h.finish hg hp hwd hpost (fun _ => id) (fun _ => id) (fun _ _ => .inr (.inl ?_))
      exact (hd (Bool.and_eq_true_iff.mp hwd).1).1
    · refine h.quiet rfl (writes_update_iff ?_) (fun _ => id)
      rw [hpost, hp]
      simp [writing?, hwd]
  | @crash x P log p d hp hw =>
    cases hk' : d.keepAlive with
    | true =>
      refine h.quiet rfl (writes_update_iff ?_) (fun _ => id)
      simp [hp, writing?, Delivery.writesData, hk']
    | false =>
      have hcrashed : DataWrite.Covered x ⟨d.frame, true⟩ := .inl rfl
      refine h.finish hg hp ?_ rfl ?_ (fun _ => id) (fun _ _ => hcrashed)
      · simp [Delivery.writesData, hw, hk']
      · intro rest hrest
        simp [WriteMark.started, hrest]
  | @activate x P log =>
    have hturn : Turn T ⟨x, P, log⟩ ⟨x.activate.1, P, log⟩ := .activate
    have hleads : x.stage.Leads x.activate.1.stage := hturn.stage_leads
    obtain ⟨stage, _, _, _, hx⟩ := x.exists_activate_eq
    apply h.quiet rfl (fun _ => Iff.rfl)
    intro w hw
    -- activation moves neither the cursor nor a subscriber that is removed
    rcases hw with hcrash | hremoved | hpassed
    · exact .inl hcrash
    · exact .inr (.inl (hleads.removed hremoved))
    · refine .inr (.inr ?_)
      rw [hx]
      exact hpassed
  | remove => exact h.quiet rfl (fun _ => Iff.rfl) (fun _ _ => .inr (.inl rfl))

end Lane

end Multicast
