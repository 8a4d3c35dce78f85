import Multicast.Proofs.Registry.Run
import Multicast.Proofs.Registry.Serving

/-! A backlog that is caught up on. Wherever the worker of a subscriber stands, it can go on until
it sleeps and nothing is pending; and what it has written by then is what was due. -/

namespace Multicast

namespace Signal

/-- How often a sleeper can still be woken by what has come already. -/
def wakeups : Signal → Nat
  | .clear | .awaited => 0
  | .stored | .given false => 1
  | .given true => 2

theorem wakeups_await (s : Signal) : s.await.wakeups = s.wakeups := by
  cases s <;> rfl

theorem wakeups_resume {s : Signal} (h : s.isGiven = true) :
    s.resume.wakeups + 1 = s.wakeups := by
  cases s with
  | given again => cases again <;> rfl
  | clear | stored | awaited => cases h

end Signal

def WorkerPoint.isAsleep {ρ : Type} : WorkerPoint ρ → Bool
  | .asleep => true
  | _ => false

/-- The order of what is pending is kept by every turn. -/
theorem Lane.Turn.ordered {T : Terms} {l l' : Lane} (t : Lane.Turn T l l')
    (h : l.session.queue.heap.Ordered) : l'.session.queue.heap.Ordered := by
  cases t with
  | adjust | join | leave | begin | goOn | settle | crash | work => exact h
  | succeed p d hp hw => split <;> exact h
  | take b rest hb => exact h.pop? hb
  | @activate x P log =>
    obtain ⟨_, _, _, _, hx⟩ := x.exists_activate_eq
    rw [hx]
    exact h
  | enqueue b hb hc =>
    rw [Session.enqueue_of_open b hc]
    exact h.push b
  | reclose | remove | fall => exact Heap.ordered_withCapacity 0

namespace Registry

variable {r v : Registry} {s : SessionId} {x y : Session} {w : Service} {d : Delivery}
  {P Q : Registry → Prop} {a : Action}

/-! ### What can still happen -/

/-- Whether the worker of a subscriber can come to where `Q` holds, nothing else happening. -/
def CanReach (v : Registry) (s : SessionId) (Q : Registry → Prop) : Prop :=
  ∃ later : List Action, (∀ a ∈ later, a.Serves s) ∧ Q (v.run later)

/-- Whether the worker of a subscriber sleeps and nobody has woken it. -/
def Rests (v : Registry) (s : SessionId) : Prop :=
  (v.session? s).any (·.worker.isAsleep) = true ∧ v.ready (.worker s) = false

instance (v : Registry) (s : SessionId) : Decidable (v.Rests s) :=
  inferInstanceAs (Decidable (_ ∧ _))

namespace CanReach

theorem here (h : Q v) : v.CanReach s Q := ⟨[], nofun, h⟩

theorem of_apply (ha : a.Serves s) (h : (v.apply a).CanReach s Q) : v.CanReach s Q := by
  obtain ⟨later, hl, hQ⟩ := h
  refine ⟨a :: later, ?_, hQ⟩
  intro b hb
  rcases List.mem_cons.mp hb with rfl | hb
  · exact ha
  · exact hl b hb

theorem of_run (h : (v.apply (.run (.worker s))).CanReach s Q) : v.CanReach s Q :=
  h.of_apply (a := .run (.worker s)) rfl

theorem trans (h : v.CanReach s P) (hPQ : ∀ u, P u → u.CanReach s Q) : v.CanReach s Q := by
  obtain ⟨later, hl, hP⟩ := h
  obtain ⟨more, hm, hQ⟩ := hPQ _ hP
  refine ⟨later ++ more, fun a ha => (List.mem_append.mp ha).elim (hl a) (hm a), ?_⟩
  rw [run, List.foldl_append]
  exact hQ

end CanReach

namespace Serving

/-- Where the worker stands in line while a number of batches are pending. -/
def InLine (r : Registry) (s : SessionId) (x : Session) (n : Nat) (v : Registry) : Prop :=
  ∃ y w, Serving r s x v y w ∧ y.worker = .inLine ∧ y.queue.size = n

/-! ### A write comes to its end -/

/-- The moment of a write that is played comes. -/
theorem canReach_of_playing (h : Serving r s x v y w) (hw : y.worker = .delivering d)
    {moment : Nat} {o : WriteOutcome} (hd : d.point = .writing (.playing moment o))
    (hQ : ∀ u, Serving r s x u y w → u.ready (.worker s) = true → u.CanReach s Q) :
    v.CanReach s Q := by
  have hlater := h.elapse (moment - v.now)
  have hready : (v.apply (.elapse (moment - v.now))).ready (.worker s) = true := by
    rw [hlater.ready_of_delivering hw hd]
    have hcome : moment ≤ v.now + (moment - v.now) := by omega
    exact decide_eq_true hcome
  exact .of_apply (a := .elapse (moment - v.now)) trivial (hQ _ hlater hready)

theorem canReach_of_done (h : Serving r s x v y w) (hw : y.worker = .delivering d)
    {point : WritePoint} {k : Sink} (hd : d.point = .writing point)
    (hready : v.ready (.worker s) = true)
    (hstep : y.sink.step v.now .worker d.frame point = (k, .done (.ok ()))) (hk : k.Succeeds) :
    v.CanReach s (InLine r s x y.queue.size) := by
  obtain ⟨z, hz, hline, hheap⟩ := h.write_done hw hd hready hstep hk
  exact .of_run (.here ⟨z, w, hz, hline, congrArg Heap.size hheap⟩)

theorem canReach_of_ok (h : Serving r s x v y w) (hw : y.worker = .delivering d) {moment : Nat}
    (hd : d.point = .writing (.playing moment .ok)) :
    v.CanReach s (InLine r s x y.queue.size) := by
  refine h.canReach_of_playing hw hd fun u hu hready => ?_
  obtain ⟨-, hy⟩ := hu.of_delivering hw hd
  exact hu.canReach_of_done hw hd hready rfl hy.sink.1

/-- A write that is held is let go on with success. -/
theorem canReach_of_held (h : Serving r s x v y w) (hw : y.worker = .delivering d)
    (hd : d.point = .writing .held) : v.CanReach s (InLine r s x y.queue.size) := by
  obtain ⟨z, hz, hzw, hqueue⟩ := h.release_of_held hw hd (o := .ok) rfl
  have hdone := hz.canReach_of_ok hzw rfl
  rw [hqueue] at hdone
  exact .of_apply (a := .release s .ok) ⟨rfl, rfl⟩ hdone

theorem canReach_of_outcome {o : WriteOutcome} {moment : Nat} (h : Serving r s x v y w)
    (hw : y.worker = .delivering d) (hd : d.point = .writing (.playing moment o)) :
    v.CanReach s (InLine r s x y.queue.size) := by
  obtain ⟨-, hy⟩ := h.of_delivering hw hd
  obtain ⟨hk, ho⟩ := hy.sink
  -- each delay leaves a smaller outcome to be played from a later moment on
  induction o generalizing v y d moment with
  | ok => exact h.canReach_of_ok hw hd
  | hold =>
    refine h.canReach_of_playing hw hd fun u hu hready => ?_
    obtain ⟨z, hz, hzw, -, hqueue⟩ := hu.write_on hw hd hready rfl hk
    have hdone := hz.canReach_of_held hzw rfl
    rw [hqueue] at hdone
    exact .of_run hdone
  | delay ms next ih =>
    refine h.canReach_of_playing hw hd fun u hu hready => ?_
    obtain ⟨z, hz, hzw, hzk, hqueue⟩ := hu.write_on hw hd hready rfl ⟨hk, ho⟩
    obtain ⟨-, hzy⟩ := hz.of_delivering hzw rfl
    have hdone := ih hz hzw rfl hzy hzy.sink.1 ho
    rw [hqueue] at hdone
    exact .of_run hdone
  | fail e => cases ho
  | crash => cases ho

/-- A write to a channel comes to its end when the receiver has taken what fills it. -/
theorem canReach_of_sending {buffer : List (Batch Nat)} (h : Serving r s x v y w)
    (hw : y.worker = .delivering d) (hd : d.point = .writing .sending) {c : Channel (Batch Nat)}
    (hc : y.sink = .channel c) (hb : c.buffer = buffer) :
    v.CanReach s (InLine r s x y.queue.size) := by
  induction buffer generalizing v y c with
  | nil =>
    obtain ⟨-, hy⟩ := h.of_delivering hw hd
    have hwrites : (Sink.channel c).Writes .sending := hc ▸ hy.sink
    obtain ⟨k, hstep, hk⟩ := hwrites.send v.now d.frame
    obtain ⟨-, hroom, hsenders⟩ := hwrites
    have hready : v.ready (.worker s) = true := by
      rw [h.ready_of_delivering hw hd, hc]
      simp only [Sink.ready, Channel.mayGo, hsenders, hb, List.length_nil, decide_eq_true hroom]
      exact Bool.or_true _
    rw [← hc] at hstep
    exact h.canReach_of_done hw hd hready hstep hk
  | cons b rest ih =>
    have hreceived : c.receive? = some (b, { c with buffer := rest }) := by
      simp only [Channel.receive?, hb]
    have hdone := ih (h.receive_of_some hc hreceived) hw rfl rfl
    exact .of_apply (a := .receive s) rfl hdone

theorem canReach_of_delivering (h : Serving r s x v y w) (hw : y.worker = .delivering d) :
    v.CanReach s (InLine r s x y.queue.size) := by
  obtain ⟨-, point, hy⟩ := h.served.of_delivering hw
  cases point with
  | playing moment o => exact h.canReach_of_outcome hw hy.stands
  | held => exact h.canReach_of_held hw hy.stands
  | sending =>
    cases hk : y.sink with
    | scripted outcomes => exact (hk ▸ hy.sink : (Sink.scripted outcomes).Writes .sending).elim
    | channel c => exact h.canReach_of_sending hw hy.stands hk rfl

/-! ### The worker comes to rest -/

theorem rests (h : Serving r s x v y w) (hw : y.worker = .asleep)
    (hs : y.queue.signal.isGiven = false) : v.Rests s := by
  refine ⟨by rw [h.session?, Option.any_some, hw]; rfl, ?_⟩
  simp only [ready, workerReady, h.session?, Queue.workerReady, hw, h.opened, hs, Bool.or_self]

/-- A worker that has been woken for nothing sleeps again. -/
theorem canReach_of_asleep {n : Nat} (h : Serving r s x v y w) (hw : y.worker = .asleep)
    (hn : y.queue.signal.wakeups ≤ n) : v.CanReach s (Rests · s) := by
  induction n generalizing v y with
  | zero =>
    refine .here (h.rests hw ?_)
    by_contra hgiven
    have hless := Signal.wakeups_resume (Bool.eq_true_of_not_eq_false hgiven)
    omega
  | succ n ih =>
    cases hgiven : y.queue.signal.isGiven with
    | false => exact .here (h.rests hw hgiven)
    | true =>
      obtain ⟨-, he, -⟩ := h.served.of_asleep hw
      obtain ⟨z, hz, hzw, hheap, hsignal⟩ := h.run_asleep hw hgiven
      obtain ⟨z', hz', hzw', hsignal'⟩ := hz.run_inLine_of_empty hzw (hheap ▸ he)
      have hless : z'.queue.signal.wakeups ≤ n := by
        have hused := Signal.wakeups_resume hgiven
        rw [hsignal', Signal.wakeups_await, hsignal]
        omega
      exact .of_run (.of_run (ih hz' hzw' hless))

/-- A worker that stands in line deals with what is pending, one batch after the other. -/
theorem canReach_of_inLine (hid : ∀ x b, r.hooks.process x b = b) {n : Nat}
    (h : InLine r s x n v) : v.CanReach s (Rests · s) := by
  -- each batch that is skipped or written leaves one fewer
  induction n generalizing v with
  | zero =>
    obtain ⟨y, w, hy, hw, hn⟩ := h
    have he : y.queue.heap.contents = 0 := by
      rw [← Multiset.card_eq_zero, Queue.card_contents]
      exact hn
    obtain ⟨z, hz, hzw, -⟩ := hy.run_inLine_of_empty hw he
    exact .of_run (hz.canReach_of_asleep hzw le_rfl)
  | succ n ih =>
    obtain ⟨y, w, hy, hw, hn⟩ := h
    have he : y.queue.heap.contents ≠ 0 := by
      intro hzero
      have hsize := Queue.size_of_empty hzero
      omega
    obtain ⟨z, w', hz, hzw, hless⟩ := hy.run_inLine hid hw he
    obtain rfl : z.queue.size = n := by omega
    refine .of_run ?_
    rcases hzw with hline | ⟨d, hd⟩
    · exact ih ⟨z, w', hz, hline, rfl⟩
    · exact (hz.canReach_of_delivering hd).trans fun u hu => ih hu

/-- Wherever the worker stands, it comes to rest. -/
theorem canReach_rests (h : Serving r s x v y w) (hid : ∀ x b, r.hooks.process x b = b) :
    v.CanReach s (Rests · s) := by
  cases h.served with
  | fresh hw =>
    obtain ⟨z, hz, hzw, -⟩ := h.run_fresh hw
    exact .of_run (canReach_of_inLine hid ⟨z, w, hz, hzw, rfl⟩)
  | inLine hw => exact canReach_of_inLine hid ⟨y, w, h, hw, rfl⟩
  | writing d point hw =>
    exact (h.canReach_of_delivering hw).trans fun u hu => canReach_of_inLine hid hu
  | asleep hw => exact h.canReach_of_asleep hw le_rfl

/-- When the worker rests, all that is pending has been dealt with. -/
theorem of_rests (h : Serving r s x v y w) (hr : v.Rests s) :
    y.queue.heap.contents = 0 ∧ y.UpToDate x.writes w := by
  have hasleep : y.worker.isAsleep = true := by
    have hany := hr.1
    rwa [h.session?, Option.any_some] at hany
  cases h.served with
  | asleep hw hg he hy => exact ⟨he, hy⟩
  | fresh hw | inLine hw | writing _ _ hw =>
    rw [hw] at hasleep
    cases hasleep

end Serving

/-! ### From the activation on -/

/-- A subscriber that is activated is served by its worker. -/
theorem serving_activate {T : Terms} (hr : Settled T r) (hx : r.session? s = some x)
    (hstage : x.stage = .registered) (hg : x.queue.gate.line = [])
    (hsingle : ∀ b ∈ x.queue.heap.contents, b.size = 1) (ho : x.queue.heap.Ordered)
    (hk : x.sink.Succeeds) :
    (r.activate s).2 = true ∧
      ∃ y, Serving r s x (r.apply (.activate s)) y { cursor := x.cursor } := by
  have hlawful := hr.sound.lawful s x hx
  have hidle : x.queue.started = false := hlawful.idle hstage
  have hopen : x.queue.closed = false := by
    refine hlawful.open_iff.mpr ?_
    rw [show (Posted.lane ⟨r, r.posts⟩ s x).session.stage = .registered from hstage]
    exact nofun
  have hactive := Session.activate_of_registered hstage hidle hopen
  have hactivated : r.activate s = ((r.update s fun _ => x.activate.1).note
      (.activated (r.nameOf s) x.activate.1.queue.size), true) := by
    simp only [activate, hx, hactive]
  have hattends := ((Attends.refl hx).update fun _ => x.activate.1).note
    (e := .activated (r.nameOf s) x.activate.1.queue.size) rfl
  refine ⟨congrArg Prod.snd hactivated, x.activate.1, ?_⟩
  rw [apply, hactivated]
  refine ⟨hattends, ?_, ?_, ?_, ?_⟩
  all_goals rw [hactive]
  · exact .begin fun b hb => hsingle b (Multiset.mem_coe.mpr hb)
  · exact ho
  · exact hopen
  · exact .fresh rfl hg ⟨hk, rfl, rfl⟩

variable {config : Config} {hooks : Hooks} {actions : List Action}

/-- A backlog is caught up on without gaps. Take a subscriber in any run that is registered, with
nobody else about to deliver, whose writes succeed and whose frames are the batches themselves; its
cursor stands where the direct deliveries have left it, and batches of one item each are pending in
any order. It can be activated; whatever its worker does then, it can come to rest; and whenever it
rests, the frames written to it since are those of the pending batches that are due, in the order of
their ids. Nothing is pending then, the cursor stands at the greatest id of all, and each batch that
was not written has been counted as skipped. -/
theorem caught_up (hid : ∀ x b, hooks.process x b = b)
    (hx : ((new config hooks).run actions).session? s = some x) (hstage : x.stage = .registered)
    (hg : x.queue.gate.line = []) (hsingle : ∀ b ∈ x.queue.heap.contents, b.size = 1)
    (hk : x.sink.Succeeds) :
    let r := (new config hooks).run actions
    let pending := x.queue.heap.toList.flatMap Batch.ids
    (r.activate s).2 = true ∧
      ∀ later : List Action, (∀ a ∈ later, a.Serves s) →
        let v := r.run (.activate s :: later)
        v.CanReach s (Rests · s) ∧
          (v.Rests s → ∃ (frames : List (Batch Nat)) (y : Session),
            v.begun s = (frames.map (Prod.mk .live)).reverse ++ r.begun s ∧
              frames.flatMap Batch.ids = config.stalePolicy.due x.cursor.position pending ∧
              (frames : Multiset (Batch Nat)) ≤ x.queue.heap.contents ∧
              v.session? s = some y ∧ y.queue.heap.isEmpty = true ∧
              y.cursor.position = (x.cursor.position.toList ++ pending).max? ∧
              y.writes = x.writes + frames.length ∧
              v.metrics.value (.staleSkips .live) + frames.length =
                r.metrics.value (.staleSkips .live) + x.queue.size) := by
  intro r pending
  have hsettled : Settled (.any config hooks True) r :=
    settled_run rfl rfl fun a _ => a.keeps_any
  have hpolicy : r.config.stalePolicy = config.stalePolicy := hsettled.sound.policy
  have hprocess : ∀ x b, r.hooks.process x b = b := by
    intro x b
    rw [show r.hooks.process = hooks.process from hsettled.sound.process, hid]
  -- the heap was filled and emptied in the course of the run, and is in order all the same
  have hordered : x.queue.heap.Ordered :=
    run_lane_induction (T := .any config hooks True)
      (I := fun l => l.session.queue.heap.Ordered) rfl rfl (fun a _ => a.keeps_any)
      (fun _ room => Heap.ordered_withCapacity room) (fun _ _ _ hl t => t.ordered hl) hx
  obtain ⟨hactive, y₀, hstart⟩ := serving_activate hsettled hx hstage hg hsingle hordered hk
  refine ⟨hactive, ?_⟩
  intro later hl v
  obtain ⟨y, w, hserving⟩ := hstart.run_actions hprocess hl
  refine ⟨hserving.canReach_rests hprocess, ?_⟩
  intro hrests
  -- at rest nothing is pending, so that all that was due has been written
  obtain ⟨hempty, hdone⟩ := hserving.of_rests hrests
  have hnil : y.queue.heap.toList = [] := Multiset.coe_eq_zero _ |>.mp hempty
  have hcourse := hserving.course
  rw [hnil, hpolicy] at hcourse
  obtain ⟨hdue, hheld, hcount, hpeak⟩ := hcourse.finish
  refine ⟨w.written, y, ?_, hdue, hheld, hserving.session?, ?_, ?_, hdone.writes, ?_⟩
  · rw [← List.map_reverse]
    exact hserving.attends.begun
  · exact (Heap.contents_eq_zero_iff _).mp hempty
  · rw [hdone.cursor]
    exact hpeak
  · have hskipped : v.metrics.value (.staleSkips .live) =
        r.metrics.value (.staleSkips .live) + w.skipped := hserving.attends.skipped
    have hsize : x.queue.size = x.queue.heap.toList.length := rfl
    omega

/-- A backfill has left the cursor at 5 while 7, 3, 5, 9 and 7 are pending; the first write of 7 is
held for a while. Only 7 and 9 are written, each once. -/
theorem caught_up_after_backfill :
    let r := (new { stalePolicy := .notAfter } {}).run ([
      .subscribe { sink := .scripted [.ok, .hold] }, .run (.call 1),
      .sendHistorical 0 ⟨[⟨4, ""⟩, ⟨5, ""⟩]⟩, .run (.call 2), .run (.call 2)] ++
      [7, 3, 5, 9, 7].map fun id => .publishLive ⟨[⟨id, ""⟩]⟩)
    let later : List Action := List.replicate 6 (.run (.worker 0)) ++ [.release 0 .ok] ++
      List.replicate 8 (.run (.worker 0))
    let v := r.run (.activate 0 :: later)
    (r.activate 0).2 = true ∧ (r.run [.activate 0]).CanReach 0 (Rests · 0) ∧ v.Rests 0 ∧
      ∃ frames : List (Batch Nat), frames.flatMap Batch.ids = [7, 9] ∧
        v.begun 0 = (frames.map (Prod.mk .live)).reverse ++ r.begun 0 ∧
        v.metrics.value (.staleSkips .live) + frames.length =
          r.metrics.value (.staleSkips .live) + 5 := by
  intro r later v
  have hsome : (r.session? 0).isSome = true := by decide +kernel
  obtain ⟨x, hx⟩ := Option.isSome_iff_exists.mp hsome
  have hall : (r.session? 0).all (fun x => decide (x.stage = .registered ∧
      x.queue.gate.line = [] ∧ (∀ b ∈ x.queue.heap.contents, b.size = 1) ∧ x.sink.Succeeds ∧
      x.cursor.position = some 5 ∧ x.queue.size = 5 ∧
      (x.queue.heap.toList.flatMap Batch.ids).Perm [3, 5, 7, 7, 9])) = true := by decide +kernel
  rw [hx, Option.all_some] at hall
  obtain ⟨hstage, hg, hsingle, hk, hcursor, hsize, hpending⟩ := of_decide_eq_true hall
  have hdue : StalePolicy.notAfter.due x.cursor.position (x.queue.heap.toList.flatMap Batch.ids) =
      [7, 9] := by
    rw [hcursor, Multiset.coe_eq_coe.mpr hpending]
    simp only [← Multiset.cons_coe, Multiset.coe_nil]
    rw [StalePolicy.due_cons_of_stale (by decide), StalePolicy.due_cons_of_stale (by decide),
      StalePolicy.due_cons_of_passes (by decide) (by decide),
      StalePolicy.due_cons_of_stale (by decide),
      StalePolicy.due_cons_of_passes (by decide) (by decide), StalePolicy.due_zero]
  have hlater : ∀ a ∈ later, a.Serves 0 := by
    simp [later, Action.Serves, WriteOutcome.succeeds]
  have hrests : v.Rests 0 := by decide +kernel
  obtain ⟨hactive, hserved⟩ := caught_up (fun _ _ => rfl) hx hstage hg hsingle hk
  obtain ⟨frames, y, hbegun, hids, -, -, -, -, -, hskips⟩ := (hserved later hlater).2 hrests
  exact ⟨hactive, (hserved [] nofun).1, hrests, frames, hids.trans hdue, hbegun,
    hsize ▸ hskips⟩

end Registry

end Multicast
