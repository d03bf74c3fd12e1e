/-! The curve y² = x³ + 7 over the integers modulo `field`, with its group of
prime order. Points are computed in Jacobian coordinates: (x, y, z) stands for
(x / z², y / z³), and z = 0 for the neutral point. -/

namespace TronCourier.Secp256k1

def field : Nat :=
  0xFFFFFFFFFFFFFFFFFFFFFFFFFFFFFFFFFFFFFFFFFFFFFFFFFFFFFFFEFFFFFC2F

def order : Nat :=
  0xFFFFFFFFFFFFFFFFFFFFFFFFFFFFFFFEBAAEDCE6AF48A03BBFD25E8CD0364141

def powMod (base exponent modulus : Nat) : Nat :=
  if exponent = 0 then 1 % modulus
  else
    let half := powMod base (exponent / 2) modulus
    let square := half * half % modulus
    if exponent % 2 = 1 then square * base % modulus else square
termination_by exponent
decreasing_by omega

def invMod (a prime : Nat) : Nat :=
  powMod (a % prime) (prime - 2) prime

def subMod (a b modulus : Nat) : Nat :=
  (a + (modulus - b % modulus)) % modulus

structure Point where
  x : Nat
  y : Nat
  z : Nat
deriving DecidableEq, Repr

namespace Point

def neutral : Point := ⟨1, 1, 0⟩

def generator : Point :=
  ⟨0x79BE667EF9DCBBAC55A06295CE870B07029BFCDB2DCE28D959F2815B16F81798,
    0x483ADA7726A3C4655DA4FBFC0E1108A8FD17B448A68554199C47D08FFB10D4B8, 1⟩

def double (p : Point) : Point :=
  if p.z = 0 ∨ p.y = 0 then neutral
  else
    let a := p.y * p.y % field
    let b := 4 * p.x * a % field
    let c := 3 * p.x * p.x % field
    let x := subMod (c * c) (2 * b) field
    let y := subMod (c * subMod b x field) (8 * a * a) field
    ⟨x, y, 2 * p.y * p.z % field⟩

def add (p q : Point) : Point :=
  if p.z = 0 then q
  else if q.z = 0 then p
  else
    let pz := p.z * p.z % field
    let qz := q.z * q.z % field
    let u := p.x * qz % field
    let v := q.x * pz % field
    let s := p.y * qz * q.z % field
    let t := q.y * pz * p.z % field
    if u = v then (if s = t then double p else neutral)
    else
      let h := subMod v u field
      let r := subMod t s field
      let hh := h * h % field
      let hhh := hh * h % field
      let x := subMod (subMod (r * r) hhh field) (2 * u * hh) field
      let y := subMod (r * subMod (u * hh) x field) (s * hhh) field
      ⟨x, y, h * p.z * q.z % field⟩

def multiple (p : Point) (n : Nat) : Point :=
  if n = 0 then neutral
  else
    let half := double (multiple p (n / 2))
    if n % 2 = 1 then add half p else half
termination_by n
decreasing_by omega

/-- The coordinates, which the neutral point does not have. -/
def affine? (p : Point) : Option (Nat × Nat) :=
  if p.z = 0 then none
  else
    let w := invMod p.z field
    let ww := w * w % field
    some (p.x * ww % field, p.y * ww * w % field)

end Point

/-- The point with a given first coordinate whose second one has a given parity. -/
def lift? (x : Nat) (odd : Bool) : Option Point :=
  let square := (x * x * x + 7) % field
  let root := powMod square ((field + 1) / 4) field
  if root * root % field = square then
    let y := if (root % 2 = 1) = odd then root else field - root
    some ⟨x, y, 1⟩
  else none

end TronCourier.Secp256k1
