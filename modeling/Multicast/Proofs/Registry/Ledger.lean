import Multicast.Proofs.Cursor
import Multicast.Proofs.Registry.Lifecycle

/-! What a subscriber knows of the writes to it: its cursor, the batch sent last and the number of
writes follow from the history of the writes that succeeded, and from nothing else. -/

namespace Multicast

namespace WriteMark

/-- Whether a write has succeeded. -/
def isWritten : WriteMark → Bool
  | .written _ _ => true
  | _ => false

/-- The frame that a write has delivered as data. -/
def delivered? : WriteMark → Option (Batch Nat)
  | .written false frame => some frame
  | _ => none

/-- The frames delivered as data, the latest first. -/
def delivered (log : List WriteMark) : List (Batch Nat) := log.filterMap delivered?

end WriteMark

namespace Lane

/-- What a subscriber knows of the writes to it is what its log tells. -/
structure Ledger (l : Lane) : Prop where
  cursor : l.session.cursor.position =
    ((WriteMark.delivered l.log).filterMap Batch.lastId?).max?
  lastSent : l.session.lastSent = (WriteMark.delivered l.log).head?
  writes : l.session.writes = l.log.countP WriteMark.isWritten

variable {T : Terms} {l l' : Lane}

theorem ledger_fresh (request : Subscription) (room : Nat) : (fresh request room).Ledger :=
  ⟨rfl, rfl, rfl⟩

/-- A mark of a write that has not succeeded leaves the ledger as it is. -/
theorem Ledger.mark {x : Session} {P P' : Party → Post} {log : List WriteMark}
    (h : Ledger ⟨x, P, log⟩) {m : WriteMark} (hm : m.isWritten = false) :
    Ledger ⟨x, P', m :: log⟩ := by
  have hd : WriteMark.delivered (m :: log) = WriteMark.delivered log := by
    cases m with
    | written => cases hm
    | begun => rfl
    | crashed => rfl
  refine ⟨?_, ?_, ?_⟩
  · rw [hd]
    exact h.cursor
  · rw [hd]
    exact h.lastSent
  · rw [List.countP_cons_of_neg (by simp [hm])]
    exact h.writes

theorem Ledger.recordWrite {x : Session} {P P' : Party → Post} {log : List WriteMark}
    (h : Ledger ⟨x, P, log⟩) (frame : Batch Nat) :
    Ledger ⟨x.recordWrite, P', .written true frame :: log⟩ := by
  refine ⟨h.cursor, h.lastSent, ?_⟩
  rw [List.countP_cons_of_pos rfl]
  exact congrArg (· + 1) h.writes

/-- Data that is written moves the cursor up to its last id and is what was sent last. -/
theorem Ledger.recordDelivery {x : Session} {P P' : Party → Post} {log : List WriteMark}
    (h : Ledger ⟨x, P, log⟩) (frame : Batch Nat) :
    Ledger ⟨x.recordWrite.recordDelivery frame, P', .written false frame :: log⟩ := by
  have hd : WriteMark.delivered (.written false frame :: log) =
      frame :: WriteMark.delivered log := rfl
  refine ⟨?_, rfl, ?_⟩
  · have hc : x.cursor.position = ((WriteMark.delivered log).filterMap Batch.lastId?).max? :=
      h.cursor
    rw [hd]
    unfold Session.recordDelivery
    dsimp only
    -- a frame without items leaves the cursor where it is and adds no id
    cases hid : frame.lastId? with
    | none =>
      rw [List.filterMap_cons_none hid]
      exact hc
    | some id =>
      rw [List.filterMap_cons_some hid, List.max?_cons, ← hc]
      exact Cursor.position_advance x.cursor id
  · rw [List.countP_cons_of_pos rfl]
    exact congrArg (· + 1) h.writes

theorem Ledger.turn (h : l.Ledger) (t : Turn T l l') : l'.Ledger := by
  cases t with
  | adjust | join | leave | take | goOn | fall | settle | work | enqueue | reclose | remove =>
    exact ⟨h.cursor, h.lastSent, h.writes⟩
  | @begin x P log p d sink hp hg hc hw hd =>
    have hb : Ledger ⟨x, P, .begun d.keepAlive d.frame :: log⟩ := h.mark rfl
    exact ⟨hb.cursor, hb.lastSent, hb.writes⟩
  | crash p d hp hw => exact h.mark rfl
  | succeed p d hp hw =>
    cases hk : d.keepAlive with
    | true => exact h.recordWrite d.frame
    | false => exact h.recordDelivery d.frame
  | @activate x P log =>
    obtain ⟨_, _, _, _, hx⟩ := x.exists_activate_eq
    rw [hx]
    exact ⟨h.cursor, h.lastSent, h.writes⟩

end Lane

end Multicast
