import Multicast.Filter
import Multicast.Registry.Basic
/-!
Filters and callbacks to exercise a registry with. The service has none of these: a filter comes
with each subscription, and the callbacks are those of whoever owns the registry.
-/

namespace Multicast

namespace Filter

def none (_ : Item Nat) : Bool := false

def atLeast (n : Nat) (item : Item Nat) : Bool := decide (n ≤ item.id)

def atMost (n : Nat) (item : Item Nat) : Bool := decide (item.id ≤ n)

def even (item : Item Nat) : Bool := item.id % 2 == 0

end Filter

/-! Changes to a batch before it is written. Ids are words of 64 bits; raising and lowering them
stops at the ends of the range. -/

namespace Transform

def largestId : Nat := Nat.pow 2 64 - 1

def mapIds (f : Nat → Nat) (b : Batch Nat) : Batch Nat :=
  ⟨b.items.map fun item => { item with id := f item.id }⟩

def raise (k : Nat) : Batch Nat → Batch Nat := mapIds fun n => min (n + k) largestId

def lower (k : Nat) : Batch Nat → Batch Nat := mapIds (· - k)

def first (n : Nat) (b : Batch Nat) : Batch Nat := ⟨b.items.take n⟩

/-- Puts a name before the tag of every item. -/
def signAs (name : String) (b : Batch Nat) : Batch Nat :=
  ⟨b.items.map fun item => { item with tag := name ++ ">" ++ item.tag }⟩

def dropOdd (b : Batch Nat) : Batch Nat := ⟨b.items.filter fun item => item.id % 2 == 0⟩

def reverse (b : Batch Nat) : Batch Nat := ⟨b.items.reverse⟩

def clear (_ : Batch Nat) : Batch Nat := .empty

end Transform

/-- The plans of a callback by peer; a star stands for every peer without a plan of its own. -/
structure PlansByPeer where
  plans : List (String × HookPlan) := []

def PlansByPeer.plan (p : PlansByPeer) (peer : String) : HookPlan :=
  ((p.plans.lookup peer).or (p.plans.lookup "*")).getD .succeed

def Hooks.byPeer (before after : PlansByPeer) (process : Session → Batch Nat → Batch Nat) :
    Hooks where
  before request := before.plan request.peer
  after x := after.plan x.peer
  process := process

end Multicast
