/-!
A gate that lets one party through at a time, in the order in which they asked.

The parties that have asked stand in one line. Its head holds the gate; when the head leaves, the
next in line holds it at once, so nobody who asks later can step in between.
-/

namespace Multicast

/-- Who deals with a subscriber: the worker of its queue, or the call with a number. -/
inductive Party
  | worker
  | call (number : Nat)
  deriving DecidableEq, Repr, Inhabited

/-- The parties that have asked, the holder first. -/
structure Gate where
  line : List Party := []
  deriving DecidableEq, Repr, Inhabited

namespace Gate

def join (g : Gate) (p : Party) : Gate := ⟨g.line ++ [p]⟩

def holds (g : Gate) (p : Party) : Bool := g.line.head? == some p

/-- Gives the gate back, or gives up waiting for it. -/
def leave (g : Gate) (p : Party) : Gate := ⟨g.line.erase p⟩

@[simp] theorem line_join (g : Gate) (p : Party) : (g.join p).line = g.line ++ [p] := rfl

@[simp] theorem line_leave (g : Gate) (p : Party) : (g.leave p).line = g.line.erase p := rfl

theorem holds_iff {g : Gate} {p : Party} : g.holds p = true ↔ g.line.head? = some p := by
  simp [holds]

end Gate

end Multicast
