import Multicast.Proofs.Registry.Delivery

/-! The worker of a subscriber as a chain of shifts: each of its steps leads from the posts that the
registry tells of to those that it tells of afterwards. -/

namespace Multicast

open Function (update)

variable {T : Terms} {r : Registry} {s : SessionId} {x : Session}

/-- What a worker does: it leads to the posts that the registry tells of then, leaves the calls
alone and brings nobody in. -/
structure Works (T : Terms) (a : Posted) (v : Registry) : Prop where
  shifts : Shifts T a ⟨v, v.posts⟩
  calls : v.calls = a.registry.calls
  length_eq : v.sessions.length = a.registry.sessions.length

theorem Works.note {a : Posted} {v : Registry} (h : Works T a v) {e : Event}
    (he : ∀ s, e.mark? s = none) : Works T a (v.note e) :=
  ⟨h.shifts.tail (.turn (.note e he)), h.calls, h.length_eq⟩

namespace Registry

/-- A worker that is up goes on to another point. -/
theorem shift_setWorker (hx : r.session? s = some x) (hw : x.worker.isUp = true)
    {w : WorkerPoint Delivery} (hw' : w ≠ .absent) :
    Shift T ⟨r, r.posts.move s .worker w.post⟩ ⟨r.setWorker s w, (r.setWorker s w).posts⟩ := by
  have hput : r.setWorker s w = r.put s { x with worker := w } [] := update_eq_put hx _
  rw [posts_setWorker hx, hput]
  exact .lane hx nofun Iff.rfl (.work w hw hw')

/-- The worker of a subscriber after some turns is the one before them. -/
theorem worker_of_turns {a b : Posted} (h : Turns T a b) (hx : a.registry.session? s = some x)
    (hw : x.worker.isUp = true) :
    ∃ y, b.registry.session? s = some y ∧ y.worker.isUp = true := by
  obtain ⟨y, hy, _⟩ := h.shifts.known hx
  have hworker := h.keeps.2 s
  rw [hx, hy, Option.map_some, Option.map_some] at hworker
  refine ⟨y, hy, ?_⟩
  rwa [Option.some.inj hworker]

/-- After some turns the worker goes on to a point with the post that it has then. -/
theorem works_setWorker {a : Posted} {v : Registry} {w : WorkerPoint Delivery}
    (h : Turns T a ⟨v, v.posts.move s .worker w.post⟩) (hx : a.registry.session? s = some x)
    (hw : x.worker.isUp = true) (hw' : w ≠ .absent) : Works T a (v.setWorker s w) := by
  obtain ⟨y, hy, hworker⟩ := worker_of_turns h hx hw
  refine ⟨h.shifts.tail (shift_setWorker hy hworker hw'), h.keeps.1, ?_⟩
  exact (List.length_modify _ _ _).trans h.length_eq

/-- The worker comes to the head of its loop without the gate, and leaves it in line or for good. -/
theorem works_workerTurn {a : Posted} (h : Turns T a ⟨r, r.posts.move s .worker .away⟩)
    (ha : a.registry.session? s = some x) (hw : x.worker.isUp = true) :
    Works T a (r.workerTurn s) := by
  obtain ⟨y, hy, _⟩ := h.shifts.known ha
  unfold workerTurn Queue.workerTurn Queue.ask
  rw [hy]
  dsimp only
  by_cases hc : y.queue.closed = true
  · rw [if_pos hc]
    refine Works.note (works_setWorker h ha hw ?_) ?_
    · exact nofun
    · exact fun _ => rfl
  · rw [if_neg hc]
    -- the worker of an open queue asks for the gate again at once
    have hjoin : Turn T ⟨r, r.posts.move s .worker .away⟩
        ⟨r.updateQueue s fun _ => { y.queue with gate := y.queue.gate.join .worker },
          r.posts.move s .worker .waiting⟩ := by
      have hturn := Turn.sessionMove (T := T) (P := r.posts.move s .worker .away) (p := .worker)
        (f := fun z => { z with queue := { y.queue with gate := y.queue.gate.join .worker } })
        hy rfl rfl (.join .worker (Posts.move_self ..) (Bool.eq_false_iff.mpr hc))
      rwa [Posts.move_move] at hturn
    have hposts := Turns.posts_eq ((Turns.refl _).snoc hjoin)
    refine works_setWorker ?_ ha hw ?_
    · rw [hposts]
      exact h.snoc hjoin
    · exact nofun

/-- A worker whose delivery has gone on delivers still, or gives the gate back. -/
theorem works_workerProgress {o : Registry × Progress Delivery DeliveryOutcome}
    (h : Turns T ⟨r, r.posts⟩ ⟨o.1, r.posts.move s .worker o.2.post⟩)
    (hx : r.session? s = some x) (hw : x.worker.isUp = true) :
    Works T ⟨r, r.posts⟩ (workerProgress s o) := by
  have hposts : o.1.posts = r.posts := h.posts_eq
  have hleave (ho : o.2.post = .waiting) :
      Turns T ⟨r, r.posts⟩
        ⟨o.1.leave s .worker, (o.1.leave s .worker).posts.move s .worker .away⟩ := by
    obtain ⟨y, hy, _⟩ := h.shifts.known hx
    rw [ho] at h
    have hmay : (r.posts.move s .worker .waiting s .worker).mayLeave = true := by
      rw [Posts.move_self]
      rfl
    have hturns := h.snoc (Turn.leave hy hmay)
    rw [Posts.move_move] at hturns
    rwa [show (o.1.leave s .worker).posts = r.posts from hturns.posts_eq]
  obtain ⟨v, progress⟩ := o
  cases progress with
  | running run =>
    refine works_setWorker ?_ hx hw nofun
    rw [hposts]
    exact h
  | done _ => exact works_workerTurn (hleave rfl) hx hw
  | crashed => exact works_setWorker (hleave rfl) hx hw nofun

/-- A worker that finds nothing to deliver gives the gate back and goes to sleep. -/
theorem turns_rest (hx : r.session? s = some x) (hp : r.posts s .worker = .waiting) :
    Turns T ⟨r, r.posts⟩ ⟨r.updateQueue s fun _ =>
      { x.queue with gate := x.queue.gate.leave .worker, signal := x.queue.signal.await },
      r.posts.move s .worker .away⟩ := by
  have hmay : (r.posts s .worker).mayLeave = true := by
    rw [hp]
    rfl
  have hleave : Turn T ⟨r, r.posts⟩ ⟨r.leave s .worker, r.posts.move s .worker .away⟩ :=
    .leave hx hmay
  have hnow : (r.leave s .worker).session? s = some { x with queue := x.queue.leave .worker } :=
    session?_update hx _
  have hsignal : Turn T ⟨r.leave s .worker, r.posts.move s .worker .away⟩
      ⟨(r.leave s .worker).updateQueue s fun q => { q with signal := x.queue.signal.await },
        r.posts.move s .worker .away⟩ :=
    .session hnow rfl rfl (.adjust x.sink x.queue.signal.await x.queue.unjoined (.inl rfl))
  have heq : (r.leave s .worker).updateQueue s
      (fun q => { q with signal := x.queue.signal.await }) =
      r.updateQueue s fun _ =>
        { x.queue with gate := x.queue.gate.leave .worker, signal := x.queue.signal.await } := by
    rw [updateQueue, update_eq_put hnow, leave, updateQueue, update_eq_put hx, put_put, updateQueue,
      update_eq_put hx]
    rfl
  rw [← heq]
  exact ((Turns.refl _).snoc hleave).snoc hsignal

theorem works_inLine (hs : Sound T ⟨r, r.posts⟩) (hx : r.session? s = some x)
    (hw : x.worker = .inLine) (hg : x.queue.gate.holds .worker = true) :
    Works T ⟨r, r.posts⟩ (r.workerStep s) := by
  have hup : x.worker.isUp = true := by
    rw [hw]
    rfl
  have hwaiting : r.posts s .worker = .waiting := by
    rw [posts_worker hx, hw]
    rfl
  have hlawful := hs.lawful s x hx
  unfold workerStep Queue.takeNext
  rw [hx]
  dsimp only
  rw [hw]
  cases hpop : x.queue.heap.pop? with
  | none =>
    have hrest := turns_rest (T := T) hx hwaiting
    refine works_setWorker ?_ hx hup nofun
    rw [hrest.posts_eq]
    exact hrest
  | some popped =>
    obtain ⟨b, rest⟩ := popped
    have hopen : x.queue.closed = false := hlawful.open_of_pop? hpop
    -- the queue is still open, since a closed one holds nothing to take
    have htake : Turn T ⟨r, r.posts⟩
        ⟨r.updateQueue s fun _ => { x.queue with heap := rest }, r.posts⟩ :=
      .session hx rfl rfl (.take b rest hpop)
    have hnow : Registry.session? (r.updateQueue s fun _ => { x.queue with heap := rest }) s =
      some { x with queue := { x.queue with heap := rest } } := session?_update hx _
    have hadmits : DeliveryKind.live ≠ .ping → T.admits b := fun _ => hlawful.admits_of_pop? hpop
    have hbegin := turns_beginDelivery (hs.shift (.turn htake)) hnow hwaiting hg hopen hadmits
    dsimp only
    rw [if_neg (by simp [hopen])]
    exact works_workerProgress (((Turns.refl _).snoc htake).trans hbegin) hx hup

theorem works_workerStep (hs : Sound T ⟨r, r.posts⟩) (hready : r.workerReady s = true) :
    Works T ⟨r, r.posts⟩ (r.workerStep s) := by
  cases hx : r.session? s with
  | none => simp [workerReady, hx] at hready
  | some x =>
    have hpost := posts_worker hx
    have hsame {w : WorkerPoint Delivery} (hw : x.worker = w) (ha : w.post = .away) :
        r.posts.move s .worker .away = r.posts := by
      apply Posts.move_eq_self
      rw [hpost, hw, ha]
    simp only [workerReady, hx] at hready
    cases hw : x.worker with
    | absent | stopped | crashed => simp [Queue.workerReady, hw] at hready
    | inLine =>
      rw [hw] at hready
      exact works_inLine hs hx hw hready
    | fresh =>
      simp only [workerStep, hx, hw]
      refine works_workerTurn (x := x) ?_ hx (by rw [hw]; rfl)
      rw [show (r.note _).posts = r.posts from rfl, hsame hw rfl]
      exact (Turns.refl _).note fun _ => rfl
    | delivering run =>
      have hbusy : r.posts s .worker = .busy run := by
        rw [hpost, hw]
        rfl
      simp only [workerStep, hx, hw]
      exact works_workerProgress (turns_deliveryStep hx hbusy) hx (by rw [hw]; rfl)
    | asleep =>
      simp only [workerStep, hx, hw]
      have hup : x.worker.isUp = true := by
        rw [hw]
        rfl
      split
      · refine Works.note (works_setWorker ?_ hx hup ?_) ?_
        · rw [show WorkerPoint.stopped.post = .away from rfl, hsame hw rfl]
        · exact nofun
        · exact fun _ => rfl
      · have hsignal : Turns T ⟨r, r.posts⟩
            ⟨r.updateQueue s fun q => { q with signal := q.signal.resume }, r.posts⟩ :=
          (Turns.refl _).snoc
            (.session hx rfl rfl
              (.adjust x.sink x.queue.signal.resume x.queue.unjoined (.inl rfl)))
        refine works_workerTurn ?_ hx hup
        rw [hsignal.posts_eq, hsame hw rfl]
        exact hsignal

end Registry

end Multicast
