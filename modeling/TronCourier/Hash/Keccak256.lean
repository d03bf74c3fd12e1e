import TronCourier.Bytes

/-! The hash function Keccak-256: the Keccak sponge with 1600 bits of state, a
rate of 136 octets and the padding that precedes the standardised one. -/

namespace TronCourier

namespace Keccak256

def roundConstants : List UInt64 :=
  [0x0000000000000001, 0x0000000000008082, 0x800000000000808A, 0x8000000080008000,
   0x000000000000808B, 0x0000000080000001, 0x8000000080008081, 0x8000000000008009,
   0x000000000000008A, 0x0000000000000088, 0x0000000080008009, 0x000000008000000A,
   0x000000008000808B, 0x800000000000008B, 0x8000000000008089, 0x8000000000008003,
   0x8000000000008002, 0x8000000000000080, 0x000000000000800A, 0x800000008000000A,
   0x8000000080008081, 0x8000000000008080, 0x0000000080000001, 0x8000000080008008]

/-- How far the lane in column `x` of row `y` turns, at index `x + 5 * y`. -/
def turns : List UInt64 :=
  [0, 1, 62, 28, 27, 36, 44, 6, 55, 20, 3, 10, 43, 25, 39, 41, 45, 15, 21, 8, 18, 2, 61, 56, 14]

def rotl (x n : UInt64) : UInt64 :=
  (x <<< n) ||| (x >>> (64 - n))

def lane (state : List UInt64) (x y : Nat) : UInt64 :=
  state.getD (x % 5 + 5 * (y % 5)) 0

/-- A state whose lane at column `x` of row `y` is `f x y`. -/
def tabulate (f : Nat → Nat → UInt64) : List UInt64 :=
  (List.range 25).map fun i => f (i % 5) (i / 5)

def mixColumns (state : List UInt64) : List UInt64 :=
  let parity := (List.range 5).map fun x =>
    lane state x 0 ^^^ lane state x 1 ^^^ lane state x 2 ^^^ lane state x 3 ^^^ lane state x 4
  let effect := (List.range 5).map fun x =>
    parity.getD ((x + 4) % 5) 0 ^^^ rotl (parity.getD ((x + 1) % 5) 0) 1
  tabulate fun x y => lane state x y ^^^ effect.getD x 0

def turnAndPlace (state : List UInt64) : List UInt64 :=
  let turned := state.zipWith rotl turns
  tabulate fun x y => lane turned (x + 3 * y) x

def mixRows (state : List UInt64) : List UInt64 :=
  tabulate fun x y => lane state x y ^^^ (~~~lane state (x + 1) y &&& lane state (x + 2) y)

def round (state : List UInt64) (constant : UInt64) : List UInt64 :=
  match mixRows (turnAndPlace (mixColumns state)) with
  | [] => []
  | first :: rest => (first ^^^ constant) :: rest

def permute (state : List UInt64) : List UInt64 :=
  roundConstants.foldl round state

/-- A lane is read with the least significant octet first. -/
def readLane (octets : Bytes) : UInt64 :=
  UInt64.ofNat (Bytes.toNat octets.reverse)

def writeLane (lane : UInt64) : Bytes :=
  (Bytes.ofNat 8 lane.toNat).reverse

def absorb (state : List UInt64) (block : Bytes) : List UInt64 :=
  let lanes := (Bytes.pieces 7 block).map readLane
  permute (state.zipWith (· ^^^ ·) (lanes ++ List.replicate 8 0))

/-- A one bit behind the message and a one bit at the end of its last block. -/
def padding (length : Nat) : Bytes :=
  match 136 - length % 136 with
  | 1 => [0x81]
  | n => 0x01 :: Bytes.zeros (n - 2) ++ [0x80]

theorem length_round (state : List UInt64) (constant : UInt64) :
    (round state constant).length = 25 := by
  have lanes : (mixRows (turnAndPlace (mixColumns state))).length = 25 := by
    simp [mixRows, tabulate]
  unfold round
  split
  · rename_i h
    simp [h] at lanes
  · rename_i h
    simpa [h] using lanes

theorem length_absorb (state : List UInt64) (block : Bytes) :
    (absorb state block).length = 25 := by
  have rounds : ∀ constants s, constants ≠ [] → (constants.foldl round s).length = 25 := by
    intro constants s h
    rw [← List.dropLast_concat_getLast h, List.foldl_append]
    exact length_round _ _
  exact rounds _ _ (by decide)

end Keccak256

def keccak256 (message : Bytes) : Bytes :=
  let blocks := Bytes.pieces 135 (message ++ Keccak256.padding message.length)
  ((blocks.foldl Keccak256.absorb (List.replicate 25 0)).take 4).flatMap Keccak256.writeLane

theorem Keccak256.length_flatMap_writeLane (lanes : List UInt64) :
    (lanes.flatMap writeLane).length = lanes.length * 8 := by
  induction lanes with
  | nil => rfl
  | cons lane lanes ih =>
    rw [List.flatMap_cons, List.length_append, ih, List.length_cons, writeLane,
      List.length_reverse, Bytes.length_ofNat]
    omega

theorem length_keccak256 (message : Bytes) : (keccak256 message).length = 32 := by
  have state : ∀ (blocks : List Bytes) (s : List UInt64), s.length = 25 →
      (blocks.foldl Keccak256.absorb s).length = 25 := by
    intro blocks
    induction blocks with
    | nil => exact fun s h => h
    | cons block blocks ih => exact fun s _ => ih _ (Keccak256.length_absorb s block)
  have lanes := state (Bytes.pieces 135 (message ++ Keccak256.padding message.length))
    (List.replicate 25 0) List.length_replicate
  rw [keccak256, Keccak256.length_flatMap_writeLane, List.length_take, lanes]
  rfl

end TronCourier
