import Multicast.Proofs.Gate
import Multicast.Proofs.Registry.Lifecycle

/-! The line at the gate of one subscriber. Those who deal with the subscriber stand in it, nobody
twice, and whoever delivers is its head; so at most one party delivers at a time. -/

namespace Multicast

namespace Lane

open Function (update)

/-- The line at the gate holds those who have asked, and whoever delivers is its head. -/
structure Gated (l : Lane) : Prop where
  nodup : l.session.queue.gate.line.Nodup
  inLine : ∀ p, p ∈ l.session.queue.gate.line ↔ l.posts p ≠ .away
  holds : ∀ p d, l.posts p = .busy d → l.session.queue.gate.holds p = true

variable {T : Terms} {l l' : Lane}

theorem gated_fresh (request : Subscription) (room : Nat) : (fresh request room).Gated :=
  ⟨List.nodup_nil, fun p => by simp [fresh, Session.ofSubscription, Queue.ofCapacity], nofun⟩

theorem gated_iff : l.Gated ↔
    l.session.queue.gate.Names (l.posts · ≠ .away) fun p => ∃ d, l.posts p = .busy d :=
  ⟨fun h => ⟨h.nodup, h.inLine, fun p ⟨d, hd⟩ => h.holds p d hd⟩,
    fun h => ⟨h.nodup, h.mem, fun p d hd => h.holds p ⟨d, hd⟩⟩⟩

/-- At most one party delivers at a time. -/
theorem Gated.eq_of_holds (h : l.Gated) {p q : Party} {d : Delivery} (hp : l.posts p = .busy d)
    (hq : l.session.queue.gate.holds q = true) : p = q :=
  (gated_iff.mp h).eq_of_holds ⟨d, hp⟩ hq

/-- Where one party changes its post the others stay at theirs. -/
theorem update_of_others {P : Party → Post} {p : Party} {post : Post} (q : Party) (hq : q ≠ p) :
    (update P p post q ≠ .away ↔ P q ≠ .away) ∧
      ((∃ d, update P p post q = .busy d) → ∃ d, P q = .busy d) := by
  rw [Function.update_of_ne hq]
  exact ⟨Iff.rfl, id⟩

/-- A party that has asked may change its post while the line stays. -/
theorem Gated.repost {x y : Session} {P : Party → Post} {log log' : List WriteMark}
    (h : Gated ⟨x, P, log⟩) (hy : y.queue.gate = x.queue.gate) {p : Party} {post : Post}
    (hp : P p ≠ .away) (hne : post ≠ .away)
    (hb : ∀ d, post = .busy d → x.queue.gate.holds p = true) :
    Gated ⟨y, update P p post, log'⟩ := by
  have hstay : x.queue.gate.Names (update P p post · ≠ .away)
      fun q => ∃ d, update P p post q = .busy d := by
    refine (gated_iff.mp h).stay (update_of_others (p := p)) ?_ ?_
    · rw [Function.update_self]
      exact iff_of_true hne hp
    · rw [Function.update_self]
      rintro ⟨d, hd⟩
      exact hb d hd
  exact gated_iff.mpr (hy ▸ hstay)

theorem Gated.join {x : Session} {P : Party → Post} {log : List WriteMark}
    (h : Gated ⟨x, P, log⟩) {p : Party} (hp : P p = .away) :
    Gated ⟨{ x with queue := { x.queue with gate := x.queue.gate.join p } },
      update P p .waiting, log⟩ := by
  refine gated_iff.mpr ((gated_iff.mp h).join update_of_others (not_not.mpr hp) ?_ ?_)
  · simp
  · simp

theorem Gated.leave {x : Session} {P : Party → Post} {log : List WriteMark}
    (h : Gated ⟨x, P, log⟩) (p : Party) :
    Gated ⟨{ x with queue := x.queue.leave p }, update P p .away, log⟩ := by
  refine gated_iff.mpr ((gated_iff.mp h).leave update_of_others ?_ ?_)
  · simp
  · simp

theorem Gated.turn (h : l.Gated) (t : Turn T l l') : l'.Gated := by
  cases t with
  | adjust | take | work | reclose | remove => exact ⟨h.nodup, h.inLine, h.holds⟩
  | enqueue b hb hc =>
    rw [Session.enqueue_of_open b hc]
    exact ⟨h.nodup, h.inLine, h.holds⟩
  | join p hp hc => exact h.join hp
  | leave p hp => exact h.leave p
  -- the gate is asked for before a delivery begins: here its holder becomes busy
  | begin p d sink hp hg hc hw hd =>
    refine h.repost ?_ ?_ ?_ (fun _ _ => hg)
    · rfl
    · simp [hp]
    · simp
  | goOn p d d' hp =>
    refine h.repost ?_ ?_ ?_ (fun _ _ => h.holds p d hp)
    · rfl
    · simp [hp]
    · simp
  | crash p d hp hw =>
    refine h.repost ?_ ?_ ?_ (fun _ _ => h.holds p d hp)
    · rfl
    · simp [hp]
    · simp
  | fall p d d' hp hw hx hd =>
    refine h.repost ?_ ?_ ?_ (fun _ _ => h.holds p d hp)
    · rfl
    · simp [hp]
    · simp
  | settle p d post hp hd hq =>
    refine h.repost ?_ ?_ ?_ (fun _ _ => h.holds p d hp)
    · rfl
    · simp [hp]
    · rcases hq with rfl | ⟨d', rfl, _⟩ <;> simp
  | succeed p d hp hw =>
    refine h.repost ?_ ?_ ?_ (fun _ _ => h.holds p d hp)
    · split <;> rfl
    · simp [hp]
    · simp
  | @activate x P log =>
    -- activation does not touch the gate
    obtain ⟨_, _, _, _, hx⟩ := x.exists_activate_eq
    rw [hx]
    exact ⟨h.nodup, h.inLine, h.holds⟩

end Lane

end Multicast
