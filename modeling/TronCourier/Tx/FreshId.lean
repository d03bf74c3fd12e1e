import TronCourier.Text.Hex

/-! Ids for transactions that come without one: random numbers in the usual form of
five groups. -/

namespace TronCourier

/-- Marks sixteen octets as random. -/
def markRandom (octets : Bytes) : Bytes :=
  octets.mapIdx fun i b =>
    if i = 6 then 0x40 ||| (b &&& 0x0F) else if i = 8 then 0x80 ||| (b &&& 0x3F) else b

def freshId (octets : Bytes) : String :=
  let marked := markRandom octets
  let group (start count : Nat) := Text.hex ((marked.drop start).take count)
  String.intercalate "-" [group 0 4, group 4 2, group 6 2, group 8 2, group 10 6]

end TronCourier
