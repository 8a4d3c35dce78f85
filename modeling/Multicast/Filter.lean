import Multicast.Batch
/-!
Which live items a subscriber wants to see.
-/

namespace Multicast.Filter

def all (_ : Item Nat) : Bool := true

def tagged (tag : String) (item : Item Nat) : Bool := item.tag == tag

end Multicast.Filter
