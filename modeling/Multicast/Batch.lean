/-!
Items and the batches they travel in. An item has an id, which places it in its stream, and a tag.
A batch is a sequence of items; the empty batch is the keep-alive frame.

A batch is ordered by the id of its last item (`Batch.lastId?`), and `Batch.before` compares two
batches by it: a batch without items stands before every batch with one.
-/

namespace Multicast

/-- One datum of a stream. -/
structure Item (ι : Type) where
  /-- The place of the item in its stream. -/
  id : ι
  tag : String
  deriving DecidableEq, Repr, Inhabited

/-- A sequence of items that is delivered as a whole. -/
structure Batch (ι : Type) where
  /-- The items, in the order in which they are delivered. -/
  items : List (Item ι)
  deriving DecidableEq, Repr, Inhabited

namespace Batch

variable {ι : Type}

def empty : Batch ι := ⟨[]⟩

def single (item : Item ι) : Batch ι := ⟨[item]⟩

def size (b : Batch ι) : Nat := b.items.length

/-- A batch without items carries no data and only shows that the connection lives. -/
def isPing (b : Batch ι) : Bool := b.items.isEmpty

def ids (b : Batch ι) : List ι := b.items.map Item.id

/-- The id of the last item, by which a batch is ordered. -/
def lastId? (b : Batch ι) : Option ι := b.items.getLast?.map Item.id

/-- Compares two optional ids: no id stands before every id. -/
def idBefore [LT ι] [DecidableLT ι] : Option ι → Option ι → Bool
  | _, none => false
  | none, some _ => true
  | some x, some y => decide (x < y)

/-- Whether the last id of `a` is below that of `b`. -/
def before [LT ι] [DecidableLT ι] (a b : Batch ι) : Bool := idBefore a.lastId? b.lastId?

/-- Only the empty batch has no last id. -/
theorem lastId?_eq_none_iff (b : Batch ι) : b.lastId? = none ↔ b.isPing = true := by
  simp [lastId?, isPing]

end Batch

end Multicast
