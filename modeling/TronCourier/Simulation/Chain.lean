import TronCourier.Bytes
import TronCourier.Node.Answer
import TronCourier.Text.Hex

/-! A chain that grows by one block every three seconds, and answers that are given
in order. -/

namespace TronCourier.Simulation

/-- The first of some answers. The last one is given again and again, and without
any answer the default is. -/
def nextAnswer (standard : α) : List α → α × List α
  | [] => (standard, [])
  | [a] => (a, [a])
  | a :: b :: rest => (a, b :: rest)

structure Chain where
  baseBlock : Int := 60000000
  baseTime : Int := 1700000000000
deriving DecidableEq, Repr

namespace Chain

def height (c : Chain) (now : Nat) : Int :=
  c.baseBlock + now / 3000

/-- The id of a block: its number, and the number times an odd constant. -/
def blockId (number : Int) : String :=
  Text.hex (Bytes.ofInt 8 number ++ (Bytes.zeros 8 ++ Bytes.ofInt 16 (number * 0x9E3779B97F4A7C15)))

def block (c : Chain) (now : Nat) : Node.Block where
  number := c.height now
  id := blockId (c.height now)
  timestamp := c.baseTime + now

end Chain

end TronCourier.Simulation
