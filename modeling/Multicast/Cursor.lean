import Multicast.StalePolicy
/-!
How far a subscriber has been served. The cursor holds the largest id delivered so far, and a
stale policy says whether data at the cursor itself counts as delivered.
-/

namespace Multicast

/-- The largest id delivered so far, if any. -/
structure Cursor (ι : Type) where
  position : Option ι
  deriving DecidableEq, Repr, Inhabited

namespace Cursor

variable {ι : Type} [LT ι] [DecidableLT ι]

omit [LT ι] [DecidableLT ι] in
def new : Cursor ι := ⟨none⟩

/-- Whether one id counts as delivered when the cursor stands at `p`. -/
def idIsStale (policy : StalePolicy) (p id : ι) : Bool :=
  match policy with
  | .older => decide (id < p)
  | .notAfter => !decide (p < id)

/-- A list of ids is stale if it has any and each of them counts as delivered. -/
def isStale (c : Cursor ι) (policy : StalePolicy) (ids : List ι) : Bool :=
  match c.position with
  | none => false
  | some p => !ids.isEmpty && ids.all (idIsStale policy p)

/-- Moves the cursor to `id` if that is forward; the answer says whether it moved. -/
def advance (c : Cursor ι) (id : ι) : Cursor ι × Bool :=
  match c.position with
  | none => (⟨some id⟩, true)
  | some p => if p < id then (⟨some id⟩, true) else (c, false)

end Cursor

end Multicast
