import Multicast.Text.Quoted
/-!
Random identifiers of 128 bits in their usual text: groups of 8, 4, 4, 4 and 12 digits in base
sixteen. Four bits say that the identifier is a random one and two bits give the layout.
-/

namespace Multicast

/-- An identifier of 128 bits. -/
structure Uuid where
  bits : BitVec 128
  deriving DecidableEq, Repr

namespace Uuid

/-- The identifier with the given random bits; those of the kind and of the layout are set. -/
def ofRandom (r : BitVec 128) : Uuid :=
  ⟨(r &&& ~~~(0xf#128 <<< 76) &&& ~~~(0x3#128 <<< 62)) ||| (0x4#128 <<< 76) ||| (0x2#128 <<< 62)⟩

def digits (u : Uuid) : List Char :=
  let ds := Nat.toDigits 16 u.bits.toNat
  List.replicate (32 - ds.length) '0' ++ ds

def text (u : Uuid) : String :=
  let ds := u.digits
  "-".intercalate <| [(0, 8), (8, 4), (12, 4), (16, 4), (20, 12)].map fun (start, count) =>
    String.ofList ((ds.drop start).take count)

end Uuid

end Multicast
