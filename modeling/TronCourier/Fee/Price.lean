import TronCourier.Number.Decimal
import TronCourier.Number.Bounds
import TronCourier.Text.Blank

/-! The price of energy, from the feed of a node, and the growth of a fee limit
with every failure for lack of energy. -/

namespace TronCourier.Fee

def afterLastComma (cs : List Char) : List Char :=
  (cs.reverse.takeWhile (· ≠ ',')).reverse

/-- The price in the last pair of a feed, where pairs of a time and a price are
separated by commas. -/
def readPrice (feed : String) : Option Int :=
  match (afterLastComma (Text.trimChars feed.toList)).dropWhile (· ≠ ':') with
  | ':' :: price =>
    match Text.readInt64 (Text.trimChars price) with
    | .ok p => if 0 ≤ p then some p else none
    | .error _ => none
  | _ => none

/-- The fee limit times a power of the multiplier, rounded down. Without a bump
it stays as it is. -/
def padded (feeLimit : Int) (multiplier : Binary64) (bumps : Nat) : Int :=
  if bumps = 0 then feeLimit
  else
    let factor := multiplier.pow (min bumps 0x7FFFFFFF)
    ((Binary64.ofInt feeLimit).mul factor).floorWithin int64Min int64Max

end TronCourier.Fee
