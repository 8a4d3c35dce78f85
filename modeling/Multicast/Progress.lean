/-!
What becomes of a task that runs for a while.
-/

namespace Multicast

/-- A task waits somewhere (`σ`), has come to its end with a result (`α`), or has crashed. -/
inductive Progress (σ α : Type)
  | running (state : σ)
  | done (result : α)
  | crashed
  deriving Repr, Inhabited

namespace Progress

variable {σ τ α : Type}

/-- The same with the waiting state put into a larger one. -/
def mapState (f : σ → τ) : Progress σ α → Progress τ α
  | running s => running (f s)
  | done a => done a
  | crashed => crashed

end Progress

end Multicast
