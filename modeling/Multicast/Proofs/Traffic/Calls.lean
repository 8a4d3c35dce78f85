import Multicast.Proofs.Registry.Release
import Multicast.Proofs.Traffic.Delivery

/-! Calls as transits. What a call has in hand are its direct deliveries and the turns that it has
counted already; it hands the count over when it reports. -/

namespace Multicast

/-- What a ping of a round has in hand. -/
def PingPoint.hands : PingPoint → Multiset Hand
  | .waiting d => {d.hand .ping}
  | .answered true => {.reached .ping}
  | .answered false => 0

/-- What a round of pings has in hand. -/
def pingHands (ps : List PingPoint) : Multiset Hand := (ps.map PingPoint.hands).sum

@[simp] theorem pingHands_cons (point : PingPoint) (ps : List PingPoint) :
    pingHands (point :: ps) = point.hands + pingHands ps := List.sum_cons

/-- What a call has in hand. -/
def Call.hands : Call → Multiset Hand
  | .backfilling b =>
    {b.current.hand .historical} + Multiset.replicate b.attempted (.reached .historical)
  | .sending d => {d.hand .historical}
  | .pinging p => pingHands p.pings
  | .pingLoop l =>
    match l.pass with
    | some p => pingHands p.pings
    | none => 0
  | .crashed => {.lost}
  | .subscribing .. | .unsubscribing .. | .sweeping _ | .stopping _ | .awaitingRemoval _
  | .farewell .. | .sweepLoop _ | .returned _ => 0

/-- What a call that has gone on has in hand, `wrap` telling where it waits. -/
def Progress.handsBy {σ α : Type} (wrap : σ → Call) : Progress σ α → Multiset Hand
  | .running st => (wrap st).hands
  | .done _ => 0
  | .crashed => {.lost}

namespace Metrics

theorem aside_shutdown (n : Nat) : Aside fun m => (m.setSessions 0).sessionsRemoved .shutdown n :=
  aside_removal 0 n .shutdown

end Metrics

/-- Nothing changes who is cancelled while a task goes on. -/
theorem Transit.isCancelled {a b : Traffic} (h : Transit a b) (s : SessionId) :
    b.registry.isCancelled s = a.registry.isCancelled s := by
  have htokens : b.registry.cancelledTokens = a.registry.cancelledTokens := by cases h <;> rfl
  unfold Registry.isCancelled
  rcases h.stays s with ⟨hx, hy⟩ | ⟨x, y, hx, hy, hstays⟩
  · rw [hx, hy]
    rfl
  · rw [hx, hy, Option.bind_some, Option.bind_some, hstays.token, htokens]

namespace Registry

variable {r u v : Registry} {s : SessionId} {x : Session} {p : Party} {b : Batch Nat}
  {kind path : DeliveryKind} {G G' : Multiset Hand}

theorem Carries.isCancelled (h : Carries r G v G') (s : SessionId) :
    v.isCancelled s = r.isCancelled s := by
  have hchain : ∀ {a b : Traffic}, Transits a b →
      b.registry.isCancelled s = a.registry.isCancelled s := by
    intro a b hab
    induction hab with
    | refl => rfl
    | tail _ hstep ih => exact (hstep.isCancelled s).trans ih
  exact hchain (h 0)

/-- A call goes on from `r` to `v`, and what it had in hand goes with it. -/
def CallGoesOn (i : Nat) (G : Multiset Hand) (r v : Registry) : Prop :=
  ∃ u c, Carries r G u (Call.hands c) ∧ v = u.setCall i c

theorem callGoesOn_settleCall {σ α : Type} {i : Nat} {wrap : σ → Call} {answer : α → Call}
    {o : Registry × Progress σ α} (h : Carries r G o.1 (o.2.handsBy wrap))
    (ha : ∀ a, (answer a).hands = 0) : CallGoesOn i G r (settleCall i wrap answer o) := by
  obtain ⟨w, progress⟩ := o
  cases progress with
  | running st => exact ⟨w, wrap st, h, rfl⟩
  | crashed => exact ⟨w, .crashed, h, rfl⟩
  | done a =>
    refine ⟨w, answer a, ?_, rfl⟩
    rw [ha]
    exact h

/-! ### Live batches -/

/-- A subscriber that is not cancelled and wants a live batch takes it, if its queue is open. -/
theorem carries_offer (s : SessionId) :
    Carries r 0 (r.offer b s).1 (Multiset.replicate (r.offer b s).2.toNat .offered) := by
  unfold offer
  cases hx : r.session? s with
  | none => exact .refl r 0
  | some x =>
    dsimp only
    split
    · exact .refl r 0
    · rename_i hcond
      obtain ⟨hcancelled, haccepts⟩ := Bool.or_eq_false_iff.mp (Bool.eq_false_iff.mpr hcond)
      by_cases hc : x.queue.closed = true
      · have hrefused : x.enqueue b = (x, false) := by
          simp only [Session.enqueue, Queue.enqueue, hc, if_true]
        rw [hrefused]
        exact .refl r 0
      · have hopen : x.queue.closed = false := Bool.eq_false_iff.mpr hc
        have hwants : x.accepts b = true := by simpa using haccepts
        have haccept (who : SessionName) : Carries r 0
            (r.put s (x.enqueue b).1 [.enqueued who b]) {.offered} := by
          have hpush : Carries r 0
              (r.put s (x.withHeap (x.queue.heap.push b)) [.enqueued who b]) {.offered} :=
            .of_gain fun _ => .accept who b hx hcancelled hwants
          -- the worker is woken besides
          have hwoken := hpush.touch (session?_put_self hx _ _) (y := (x.enqueue b).1) (by
            rw [Session.enqueue_of_open b hopen]
            exact ⟨rfl, rfl, rfl, rfl, rfl, rfl⟩)
          rwa [put_put, List.nil_append] at hwoken
        have htaken : x.enqueue b = ((x.enqueue b).1, true) := by
          rw [Session.enqueue_of_open b hopen]
        rw [htaken]
        dsimp only
        rw [update_eq_put hx]
        exact haccept _

theorem carries_offerAll (ss : List SessionId) :
    Carries r 0 (offerAll b ss r).1 (Multiset.replicate (offerAll b ss r).2 .offered) := by
  induction ss generalizing r with
  | nil => exact .refl r 0
  | cons s rest ih =>
    have hoffer : Carries r 0 (r.offer b s).1 (Multiset.replicate (r.offer b s).2.toNat .offered) :=
      carries_offer s
    rw [offerAll]
    rcases htaken : r.offer b s with ⟨v, taken⟩
    rw [htaken] at hoffer
    cases taken with
    | false => exact hoffer.trans ih
    | true =>
      have hrest := (ih (r := v)).frame {.offered}
      rw [zero_add, ← Multiset.replicate_one, ← Multiset.replicate_add] at hrest
      exact hoffer.trans hrest

/-- A live batch is reported with the number of queues that have taken it. -/
theorem carries_publishLive : Carries r 0 (r.publishLive b).1 0 := by
  have hreport (w : Registry) (n : Nat) : Carries w (Multiset.replicate n .offered)
      (w.count (·.batchPublished .live n)) 0 := by
    apply Carries.of_transit
    intro H
    rw [zero_add]
    exact .reportLive n
  unfold publishLive
  split
  · exact (carries_offerAll r.members).trans (hreport _ _)
  · exact .refl r 0

/-! ### Deliveries past the queues -/

theorem carries_reportHistorical (n : Nat) :
    Carries r (Multiset.replicate n (.reached .historical)) (r.count (·.batchPublished .historical n))
      0 := by
  refine .of_transit fun H => ?_
  rw [zero_add]
  exact .reportHistorical n

/-- A backfill takes up its batch for the next subscriber that takes it, or reports. -/
theorem carries_nextBackfill (n : Nat) (ss : List SessionId) :
    Carries r (Multiset.replicate n (.reached .historical)) (r.nextBackfill p b n ss).1
      ((r.nextBackfill p b n ss).2.handsBy .backfilling) := by
  induction ss with
  | nil => exact carries_reportHistorical n
  | cons s rest ih =>
    rw [nextBackfill]
    split
    · exact ih
    · rename_i hcancelled
      split
      · rename_i v hgate
        have hjoin : Carries r 0 v {.line .historical .historical s b} :=
          carries_askGate hgate DeliveryKind.noConfusion (Bool.eq_false_iff.mpr hcancelled)
            DeliveryKind.noConfusion
        have hframed := hjoin.frame (Multiset.replicate n (.reached .historical))
        rwa [zero_add] at hframed
      · exact ih

theorem carries_backfillStep (f : Backfill) : Carries r (Call.backfilling f).hands
    (r.backfillStep p f).1 ((r.backfillStep p f).2.handsBy .backfilling) := by
  have hone : Carries r {f.current.hand .historical} (r.directStep p f.current).1
      ((r.directStep p f.current).2.directHands .historical) :=
    carries_directStep DeliveryKind.noConfusion f.current
  have hstep := hone.frame (Multiset.replicate f.attempted (.reached .historical))
  unfold backfillStep
  rcases hres : r.directStep p f.current with ⟨w, progress⟩
  rw [hres] at hstep
  cases progress with
  | running e => exact hstep
  | crashed => exact hstep.crash
  | done reached =>
    refine hstep.trans ?_
    -- a turn that was had is counted with those before
    cases reached with
    | false =>
      dsimp only [Progress.directHands]
      rw [zero_add]
      exact carries_nextBackfill _ _
    | true =>
      dsimp only [Progress.directHands]
      rw [← Multiset.replicate_one, ← Multiset.replicate_add, Nat.add_comm]
      exact carries_nextBackfill _ _

theorem callGoesOn_sent {i : Nat} {o : Registry × Progress Direct Bool}
    (h : Carries r G o.1 (o.2.directHands .historical)) : CallGoesOn i G r (sent i o) := by
  obtain ⟨w, progress⟩ := o
  cases progress with
  | running e => exact ⟨w, .sending e, h, rfl⟩
  | crashed => exact ⟨w, .crashed, h, rfl⟩
  | done reached =>
    refine ⟨_, .returned (.ok (.flag reached)), ?_, rfl⟩
    cases reached with
    | true => exact h.trans (carries_reportHistorical 1)
    | false => exact h.trans (carries_reportHistorical 0)

/-! ### Pings -/

/-- A round takes up the frames that its subscribers would get now. -/
theorem carries_askPings {ss : List SessionId} (hc : ∀ s ∈ ss, r.isCancelled s = false) :
    Carries r 0 (r.askPings p ss).1 (pingHands (r.askPings p ss).2) := by
  induction ss generalizing r with
  | nil => exact .refl r 0
  | cons s rest ih =>
    unfold askPings
    dsimp only
    split
    · rename_i v hgate
      let frame := ((r.session? s).map (·.pingFrame)).getD .empty
      have hjoin : Carries r 0 v {.line .ping .ping s frame} :=
        carries_askGate hgate nofun (hc s List.mem_cons_self) fun _ => rfl
      have hrest := (ih (r := v) fun t ht => by
        rw [hjoin.isCancelled]
        exact hc t (List.mem_cons_of_mem s ht)).frame {.line .ping .ping s frame}
      rw [zero_add] at hrest
      rw [pingHands_cons, add_comm]
      exact hjoin.trans hrest
    · rw [pingHands_cons]
      have hrest := ih fun t ht => hc t (List.mem_cons_of_mem s ht)
      rw [← zero_add (pingHands _)] at hrest
      exact hrest

/-- What is in hand when all answers are in are the turns that were had. -/
theorem pingHands_of_answers {ps : List PingPoint} {answers : List Bool}
    (h : pingAnswers? ps = some answers) :
    pingHands ps = Multiset.replicate (answers.count true) (.reached .ping) := by
  induction ps generalizing answers with
  | nil =>
    obtain rfl := Option.some.inj h
    rfl
  | cons point rest ih =>
    cases point with
    | waiting d => cases h
    | answered reached =>
      obtain ⟨more, hmore, rfl⟩ := Option.map_eq_some_iff.mp h
      rw [pingHands_cons, ih hmore]
      cases reached with
      | false =>
        rw [List.count_cons_of_ne Bool.false_ne_true]
        exact zero_add _
      | true =>
        rw [List.count_cons_self, Nat.add_comm, Multiset.replicate_add]
        rfl

theorem carries_closePings (wrap : PingPass → Call)
    (hwrap : ∀ pass, (wrap pass).hands = pingHands pass.pings) (ps : List PingPoint) :
    Carries r (pingHands ps) (r.closePings ps).1 ((r.closePings ps).2.handsBy wrap) := by
  unfold closePings
  cases hanswers : pingAnswers? ps with
  | none =>
    dsimp only [Progress.handsBy]
    rw [hwrap]
    exact .refl r _
  | some answers =>
    rw [pingHands_of_answers hanswers]
    refine .of_transit fun H => ?_
    dsimp only [Progress.handsBy]
    rw [zero_add]
    exact .reportPings _

theorem carries_beginPings (wrap : PingPass → Call)
    (hwrap : ∀ pass, (wrap pass).hands = pingHands pass.pings) :
    Carries r 0 (r.beginPings p).1 ((r.beginPings p).2.handsBy wrap) := by
  have hask : Carries r 0 (r.askPings p (r.members.filter fun s => !r.isCancelled s)).1 _ :=
    carries_askPings fun s hs => by simpa using (List.mem_filter.mp hs).2
  exact hask.trans (carries_closePings wrap hwrap _)

theorem carries_abandonPings (h : Carries r G u G') (ps : List PingPoint) :
    Carries r G (u.abandonPings p ps) G' := by
  induction ps generalizing u with
  | nil => exact h
  | cons point rest ih =>
    cases point with
    | waiting e => exact ih (carries_abandon h e)
    | answered _ => exact ih h

/-- A ping stays where it is while another of its round goes on. -/
theorem Carries.beside {ps qs : List PingPoint} (h : Carries r (pingHands ps) v (pingHands qs))
    (point : PingPoint) :
    Carries r (pingHands (point :: ps)) v (pingHands (point :: qs)) := by
  rw [pingHands_cons, pingHands_cons, add_comm, add_comm point.hands]
  exact h.frame point.hands

/-- What a round has in hand after one of its pings has gone on; a crash takes all along. -/
def pingHands? : Option (List PingPoint) → Multiset Hand
  | some ps => pingHands ps
  | none => {.lost}

theorem carries_stepPings (ps : List PingPoint) :
    Carries r (pingHands ps) (r.stepPings p ps).1 (pingHands? (r.stepPings p ps).2) := by
  induction ps with
  | nil => exact .refl r _
  | cons point rest ih =>
    -- whichever ping goes on is another
    have hother {w : Registry} {left : Option (List PingPoint)}
        (hres : r.stepPings p rest = (w, left)) (point : PingPoint) :
        Carries r (pingHands (point :: rest)) w (pingHands? (left.map (point :: ·))) := by
      rw [hres] at ih
      cases left with
      | some qs => exact ih.beside point
      | none =>
        rw [pingHands_cons, add_comm]
        exact (ih.frame point.hands).crash
    cases point with
    | answered reached =>
      rw [stepPings]
      rcases hres : r.stepPings p rest with ⟨w, left⟩
      have hrest := hother hres (.answered reached)
      cases left with
      | none => exact hrest
      | some qs => exact hrest
    | waiting e =>
      rw [stepPings]
      split
      · rw [pingHands_cons]
        -- the ping goes on, and the others stay where they are
        have hone : Carries r {e.hand .ping} (r.directStep p e).1
            ((r.directStep p e).2.directHands .ping) := carries_directStep DeliveryKind.noConfusion e
        have hstep := hone.frame (pingHands rest)
        rcases hres : r.directStep p e with ⟨w, progress⟩
        rw [hres] at hstep
        cases progress with
        | running e' =>
          refine hstep.trans ?_
          rw [pingHands?, pingHands_cons]
          exact .refl w _
        | done reached =>
          refine hstep.trans ?_
          rw [pingHands?, pingHands_cons]
          cases reached with
          | true => exact .refl w _
          | false => exact .refl w _
        | crashed => exact (carries_abandonPings hstep rest).crash
      · rcases hres : r.stepPings p rest with ⟨w, left⟩
        have hrest := hother hres (.waiting e)
        cases left with
        | none => exact carries_abandon hrest e
        | some qs => exact hrest

theorem carries_pingStep (wrap : PingPass → Call)
    (hwrap : ∀ pass, (wrap pass).hands = pingHands pass.pings) (pass : PingPass) :
    Carries r (pingHands pass.pings) (r.pingStep p pass).1
      ((r.pingStep p pass).2.handsBy wrap) := by
  have hstep := carries_stepPings (r := r) (p := p) pass.pings
  unfold pingStep
  rcases hres : r.stepPings p pass.pings with ⟨w, left⟩
  rw [hres] at hstep
  cases left with
  | some ps => exact hstep.trans (carries_closePings wrap hwrap ps)
  | none => exact hstep

/-! ### Leaving -/

/-- A sweep has nothing in hand. -/
theorem carries_nextSweep (removed : Nat) (ss : List SessionId) :
    Carries r 0 (r.nextSweep removed ss).1 ((r.nextSweep removed ss).2.handsBy .sweeping) := by
  induction ss with
  | nil =>
    rw [nextSweep]
    split
    · exact (Carries.refl r 0).note id
    · exact .refl r 0
  | cons s rest ih =>
    rw [nextSweep]
    have hdetach := carries_detach (s := s) (Carries.refl r 0) .cancelled
    rcases hres : r.detach s .cancelled with ⟨w, found⟩
    rw [hres] at hdetach
    cases found with
    | true => exact carries_callAfter hdetach
    | false => exact ih

theorem carries_sweepStep (pass : SweepPass) :
    Carries r 0 (r.sweepStep pass).1 ((r.sweepStep pass).2.handsBy .sweeping) := by
  unfold sweepStep
  cases pass.hook.step r.now with
  | running hook => exact .refl r 0
  | crashed => exact (Carries.refl r 0).crash
  | done result =>
    have hreturned : Carries r 0 (r.noteReturn pass.session .hookFailed result) 0 :=
      carries_noteReturn (Carries.refl r 0) (fun _ _ => id) result
    exact hreturned.trans (carries_nextSweep _ _)

/-- Who takes leave of a subscriber has nothing in hand; the queue that it closes once more is
empty. -/
theorem carries_farewellStep (f : Farewell)
    (hempty : ∀ x, r.session? s = some x → x.queue.heap.contents = 0) :
    Carries r 0 (r.farewellStep s f).1 ((r.farewellStep s f).2.handsBy (.farewell s)) := by
  cases f with
  | fresh =>
    unfold farewellStep
    cases hx : r.session? s with
    | none => exact (Carries.refl r 0).crash
    | some x =>
      have hclosed : Carries r 0 (r.updateQueue s fun _ => x.queue.close.join.1) 0 := by
        refine (Carries.refl r 0).updateQueue fun y hy => ?_
        rw [hempty y hy]
        rfl
      dsimp only
      split
      · exact hclosed
      · exact carries_callAfter hclosed
  | joining =>
    unfold farewellStep
    dsimp only
    refine carries_callAfter ?_
    split
    · exact (Carries.refl r 0).note id
    · exact .refl r 0
  | saying hook =>
    unfold farewellStep
    dsimp only
    cases hook.step r.now with
    | running _ => exact .refl r 0
    | crashed => exact (Carries.refl r 0).crash
    | done _ => exact .refl r 0

theorem carries_noteCrashes (h : Carries r G u G') (is : List Nat) :
    Carries r G (noteCrashes is u) G' := by
  induction is generalizing u with
  | nil => exact h
  | cons j rest ih =>
    rw [noteCrashes]
    split
    · exact ih (h.note id)
    · exact ih h

theorem carries_markAllRemoved (h : Carries r G u G') (ss : List SessionId) :
    Carries r G (markAllRemoved ss u).1 G' := by
  induction ss generalizing u with
  | nil => exact h
  | cons s rest ih =>
    rw [markAllRemoved]
    rcases u.present_or_gone s with ⟨x, hx, hstage⟩ | hgone
    · rw [markRemoved_eq hx hstage]
      exact ih (h.trans (.of_transit fun _ => .discard _ hx))
    · rw [markRemoved_of_removed hgone]
      exact ih h

theorem carries_evacuate : Carries r 0 r.evacuate.1 0 :=
  carries_markAllRemoved (.of_transit fun _ => .roster [] true) r.members

end Registry

end Multicast
