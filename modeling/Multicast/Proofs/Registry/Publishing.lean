import Multicast.Proofs.Registry.Standing

/-! Publishing as chains of turns: backfills and single direct deliveries, which go past the queues,
and live batches, which go into them. -/

namespace Multicast

open Function (update)

variable {T : Terms} {r : Registry} {P : Posts} {s : SessionId} {p : Party}

/-- Where the party of a call stands when the call has gone on, `wrap` telling where it waits. -/
def Progress.postsBy {σ α : Type} (wrap : σ → Call) : Progress σ α → SessionId → Post
  | .running st => postsOf (wrap st).directs
  | .done _ | .crashed => fun _ => .away

theorem Posts.give_away (hp : ∀ t, P t p = .away) : (P.give p fun _ => .away) = P := by
  have hself := Posts.give_eq_self P p
  rwa [funext hp] at hself

/-- A party that has one direct delivery moves with it alone. -/
theorem Posts.move_of_single {d : Direct} (hp : ∀ t, P t p = postsOf [d] t) (post : Post) :
    P.move d.session p post = P.give p (update (fun _ => .away) d.session post) := by
  rw [Posts.move_eq_give, funext hp, postsOf, overlay, overlay, Function.update_idem]

/-- To move back to where everybody is away is to be away. -/
theorem Posts.move_away_of_single {d : Direct} (hp : ∀ t, P t p = postsOf [d] t) :
    P.move d.session p .away = P.give p fun _ => .away := by
  have haway : update (fun _ : SessionId => Post.away) d.session .away = fun _ => .away :=
    Function.update_eq_self d.session _
  rw [Posts.move_of_single hp, haway]

/-- One direct delivery is placed where its subscriber is there and it fits. -/
theorem DirectsPlaced.single {d : Direct} {x : Session} (hx : r.session? d.session = some x)
    (hd : d.Fit T) : DirectsPlaced T r [d] := by
  refine ⟨?_, List.nodup_singleton _, ?_⟩
  · intro e he
    rw [List.mem_singleton.mp he]
    exact ⟨x, hx⟩
  · intro e he
    rw [List.mem_singleton.mp he]
    exact hd

/-- A delivery of a published batch that stands in line fits. -/
theorem Direct.fit_of_admits {b : Batch Nat} {kind : DeliveryKind} (hb : T.admits b) :
    Direct.Fit T { session := s, batch := b, kind := kind } :=
  ⟨fun _ => hb, fun _ => nofun⟩

namespace Registry

/-! ### Deliveries past the queues -/

/-- The only direct delivery of a party goes on. -/
theorem turns_directStep_single (hs : Sound T ⟨r, P⟩) {d : Direct} (hd : DirectsPlaced T r [d])
    (hp : ∀ t, P t p = postsOf [d] t) (hready : r.directReady p d = true) :
    Turns T ⟨r, P⟩ ⟨(r.directStep p d).1, P.give p ((r.directStep p d).2.postsBy .sending)⟩ ∧
      ∀ d', (r.directStep p d).2 = .running d' →
        d'.batch = d.batch ∧ d'.kind = d.kind ∧ DirectsPlaced T (r.directStep p d).1 [d'] := by
  obtain ⟨x, hx⟩ := hd.known d (List.mem_singleton.mpr rfl)
  have hfit := hd.fit d (List.mem_singleton.mpr rfl)
  have hpost : P d.session p = d.post := by
    rw [hp, postsOf, overlay, Function.update_self]
  have hturns := turns_directStep hs hx hpost hready hfit
  refine ⟨?_, ?_⟩
  · cases hstep : (r.directStep p d).2 with
    | running d' =>
      obtain ⟨hsession, _, _, _⟩ := directStep_running hstep hfit
      rw [hstep, Progress.directPost, Posts.move_of_single hp, ← hsession] at hturns
      exact hturns
    | done _ =>
      rw [hstep, Progress.directPost, Posts.move_away_of_single hp] at hturns
      exact hturns
    | crashed =>
      rw [hstep, Progress.directPost, Posts.move_away_of_single hp] at hturns
      exact hturns
  · intro d' hd'
    obtain ⟨hsession, hbatch, hkind, hfit'⟩ := directStep_running hd' hfit
    obtain ⟨y, hy, _⟩ := hturns.shifts.known hx
    rw [← hsession] at hy
    exact ⟨hbatch, hkind, .single hy hfit'⟩

/-- A backfill goes on with the first subscriber that takes it. -/
theorem turns_nextBackfill (hp : ∀ t, P t p = .away) {b : Batch Nat} (hb : T.admits b)
    (attempted : Nat) (ss : List SessionId) :
    Turns T ⟨r, P⟩ ⟨(r.nextBackfill p b attempted ss).1,
      P.give p ((r.nextBackfill p b attempted ss).2.postsBy .backfilling)⟩ ∧
      ∀ b', (r.nextBackfill p b attempted ss).2 = .running b' →
        (Call.backfilling b').Placed T (r.nextBackfill p b attempted ss).1 := by
  induction ss with
  | nil =>
    refine ⟨?_, nofun⟩
    rw [nextBackfill, Progress.postsBy, Posts.give_away hp]
    exact (Turns.refl _).count (Metrics.neutral_batchPublished .historical attempted)
  | cons s rest ih =>
    rw [nextBackfill]
    split
    · exact ih
    · split
      · rename_i v hgate
        obtain ⟨hturns, x, hx⟩ := turns_askGate (T := T) hgate (hp s)
        obtain ⟨y, hy, _⟩ := hturns.shifts.known hx
        refine ⟨?_, ?_⟩
        · rw [Posts.move_eq_give, funext hp] at hturns
          exact hturns
        · intro b' hb'
          cases hb'
          exact ⟨.single hy (Direct.fit_of_admits hb), hb⟩
      · exact ih

theorem turns_backfillStep (hs : Sound T ⟨r, P⟩) {b : Backfill}
    (hb : (Call.backfilling b).Placed T r) (hp : ∀ t, P t p = postsOf [b.current] t)
    (hready : r.directReady p b.current = true) :
    Turns T ⟨r, P⟩ ⟨(r.backfillStep p b).1,
      P.give p ((r.backfillStep p b).2.postsBy .backfilling)⟩ ∧
      ∀ b', (r.backfillStep p b).2 = .running b' →
        (Call.backfilling b').Placed T (r.backfillStep p b).1 := by
  obtain ⟨hturns, hrunning⟩ := turns_directStep_single hs hb.directs hp hready
  unfold backfillStep
  rcases hstep : r.directStep p b.current with ⟨v, progress⟩
  rw [hstep] at hturns hrunning
  cases progress with
  | running d =>
    refine ⟨hturns, ?_⟩
    intro b' hb'
    cases hb'
    exact ⟨(hrunning d rfl).2.2, hb.fit⟩
  | crashed => exact ⟨hturns, nofun⟩
  | done reached =>
    dsimp only [Progress.postsBy] at hturns ⊢
    have haway : ∀ t, P.give p (fun _ => .away) t p = .away := fun t => Posts.give_self ..
    have hnext := turns_nextBackfill (T := T) (r := v) haway hb.fit
      (if reached then b.attempted + 1 else b.attempted) b.rest
    rw [Posts.give_give] at hnext
    exact ⟨hturns.trans hnext.1, hnext.2⟩

/-! ### Live batches -/

theorem turns_offer {b : Batch Nat} (hb : T.admits b) (s : SessionId) :
    Turns T ⟨r, P⟩ ⟨(r.offer b s).1, P⟩ := by
  unfold offer
  cases hx : r.session? s with
  | none => exact .refl _
  | some x =>
    dsimp only
    split
    · exact .refl _
    · by_cases hc : x.queue.closed = true
      · have hrefused : (x.enqueue b).2 = false := by simp [Session.enqueue, Queue.enqueue, hc]
        rcases henqueue : x.enqueue b with ⟨y, taken⟩
        rw [henqueue] at hrefused
        obtain rfl : taken = false := hrefused
        exact .refl _
      · have hopen : x.queue.closed = false := Bool.eq_false_iff.mpr hc
        have htaken : x.enqueue b = ((x.enqueue b).1, true) := by
          rw [Session.enqueue_of_open b hopen]
        have hturn : Turn T ⟨r, P⟩ ⟨r.update s fun _ => (x.enqueue b).1, P⟩ :=
          .session hx rfl rfl (.enqueue b hb hopen)
        rw [htaken]
        exact ((Turns.refl _).snoc hturn).note fun _ => rfl

theorem turns_offerAll {b : Batch Nat} (hb : T.admits b) (ss : List SessionId) :
    Turns T ⟨r, P⟩ ⟨(offerAll b ss r).1, P⟩ := by
  induction ss generalizing r with
  | nil => exact .refl _
  | cons s rest ih =>
    have hoffer := turns_offer (T := T) (r := r) (P := P) hb s
    rw [offerAll]
    rcases htaken : r.offer b s with ⟨v, taken⟩
    rw [htaken] at hoffer
    have hrest := ih (r := v)
    cases taken with
    | true => exact hoffer.trans hrest
    | false => exact hoffer.trans hrest

theorem turns_publishLive {b : Batch Nat} (hb : T.admits b) :
    Turns T ⟨r, P⟩ ⟨(r.publishLive b).1, P⟩ := by
  unfold publishLive
  split
  · exact (turns_offerAll hb r.members).count (Metrics.neutral_batchPublished .live _)
  · exact .refl _

end Registry

end Multicast
