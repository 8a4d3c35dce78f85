import Multicast.Queue.Scripted

/-! Every run of a queue by itself: its callers, its worker and its handler act in any order, and
time passes at any moment. -/

namespace Multicast

/-- Whatever can happen to a queue. -/
inductive QueueAction
  /-- The worker or a call that need not wait goes on to its next wait. -/
  | run (p : Party)
  | elapse (ms : Nat)
  | enqueue (b : Batch Nat)
  | start
  | deliverNow (b : Batch Nat) (kind : DeliveryKind)
  | close
  | shutdown
  /-- A handler that is held goes on with the given acts. -/
  | release (acts : List HandlerAct)
  deriving DecidableEq

namespace ScriptedQueue

/-- What an action makes of a queue. A party that has to wait does nothing. -/
def apply (w : ScriptedQueue) : QueueAction → ScriptedQueue
  | .run p => if w.ready p then w.step p else w
  | .elapse ms => { w with now := w.now + ms }
  | .enqueue b => (w.enqueue b).1
  | .start => w.start.1
  | .deliverNow b kind => w.deliverNow b kind
  | .close => w.close
  | .shutdown => w.shutdown
  | .release acts => (w.release acts).1

/-- What a list of actions makes of a queue. -/
def run (w : ScriptedQueue) (actions : List QueueAction) : ScriptedQueue := actions.foldl apply w

theorem run_induction {I : ScriptedQueue → Prop} {actions : List QueueAction}
    (step : ∀ w, ∀ a ∈ actions, I w → I (w.apply a)) {w : ScriptedQueue} (start : I w) :
    I (w.run actions) := by
  induction actions generalizing w with
  | nil => exact start
  | cons a rest ih =>
    have hstep := step w a List.mem_cons_self start
    exact ih (fun v b hb => step v b (List.mem_cons_of_mem a hb)) hstep

end ScriptedQueue

end Multicast
