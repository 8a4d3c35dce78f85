/-!
How a batch reaches a subscriber.
-/

namespace Multicast

/-- The way a batch takes to a subscriber. -/
inductive DeliveryKind
  /-- Taken from the subscriber's queue by its worker. -/
  | live
  | historical
  | ping
  deriving DecidableEq, Repr, Inhabited

namespace DeliveryKind

def name : DeliveryKind → String
  | .live => "live"
  | .historical => "historical"
  | .ping => "ping"

def all : List DeliveryKind := [.live, .historical, .ping]

end DeliveryKind

end Multicast
