import Multicast.Progress
/-!
Callbacks around the life of a subscriber, as the registry sees them: what a callback does once it
is called, and where it stands while it runs.
-/

namespace Multicast

/-- Why a callback failed. -/
inductive HookError
  | rejected (text : String)
  | failed (text : String)
  deriving DecidableEq, Repr

def HookError.message : HookError → String
  | .rejected text => "subscriber rejected: " ++ text
  | .failed text => "hook failed: " ++ text

/-- What a callback does. -/
inductive HookPlan
  | succeed
  | fail (e : HookError)
  | crash
  | delay (ms : Nat) (next : HookPlan)
  deriving DecidableEq, Repr, Inhabited

/-- A callback under way: it goes on with its plan at a moment. -/
structure HookRun where
  moment : Nat
  plan : HookPlan
  deriving DecidableEq, Repr, Inhabited

namespace HookRun

/-- Whether the callback need not wait any longer. -/
def ready (h : HookRun) (now : Nat) : Bool := decide (h.moment ≤ now)

/-- Lets a callback that need not wait go on. -/
def step (h : HookRun) (now : Nat) : Progress HookRun (Except HookError Unit) :=
  match h.plan with
  | .succeed => .done (.ok ())
  | .fail e => .done (.error e)
  | .crash => .crashed
  | .delay ms next => .running ⟨now + ms, next⟩

end HookRun

end Multicast
