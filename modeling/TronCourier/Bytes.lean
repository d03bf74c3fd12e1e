/-! Octet strings and the numbers that they write in base 256, the most
significant octet first. -/

namespace TronCourier

abbrev Bytes := List UInt8

namespace Bytes

def toNat (bs : Bytes) : Nat :=
  bs.foldl (fun n b => n * 256 + b.toNat) 0

def ofNat : Nat → Nat → Bytes
  | 0, _ => []
  | width + 1, n => ofNat width (n / 256) ++ [UInt8.ofNat n]

def ofInt (width : Nat) (i : Int) : Bytes :=
  ofNat width (i % (Nat.pow 256 width : Nat)).toNat

/-- The octets of a number without leading zeros. Zero has none. -/
def minimal (n : Nat) : Bytes :=
  if n = 0 then [] else minimal (n / 256) ++ [UInt8.ofNat n]
termination_by n
decreasing_by omega

def zeros (n : Nat) : Bytes :=
  List.replicate n 0

/-- Cuts a list into pieces of `n + 1` items, the last one possibly shorter. -/
def pieces (n : Nat) : List α → List (List α)
  | [] => []
  | a :: r => (a :: r.take n) :: pieces n (r.drop n)
termination_by xs => xs.length
decreasing_by simp only [List.length_drop, List.length_cons]; omega

@[simp] theorem length_ofNat (width n : Nat) : (ofNat width n).length = width := by
  induction width generalizing n with
  | zero => rfl
  | succ w ih => simp [ofNat, ih]

@[simp] theorem length_ofInt (width : Nat) (i : Int) : (ofInt width i).length = width :=
  length_ofNat width _

theorem toNat_append_singleton (bs : Bytes) (b : UInt8) :
    toNat (bs ++ [b]) = toNat bs * 256 + b.toNat := by
  simp [toNat, List.foldl_append]

theorem toNat_ofNat (width n : Nat) : toNat (ofNat width n) = n % Nat.pow 256 width := by
  induction width generalizing n with
  | zero => simp [ofNat, toNat, Nat.mod_one]
  | succ w ih =>
    have octet : (UInt8.ofNat n).toNat = n % 256 := by simp
    have power : Nat.pow 256 (w + 1) = 256 * Nat.pow 256 w := Nat.mul_comm _ _
    rw [ofNat, toNat_append_singleton, ih, octet, power, Nat.mod_mul]
    omega

end Bytes

end TronCourier
