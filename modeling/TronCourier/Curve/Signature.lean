import TronCourier.Curve.Secp256k1
import TronCourier.Hash.Hmac

/-! Recoverable signatures on secp256k1. The nonce is derived from the secret and
the digest, and of the two values that sign alike the lower one is given. -/

namespace TronCourier.Secp256k1

structure Signature where
  r : Nat
  s : Nat
  /-- Whether the nonce's point has an odd second coordinate. -/
  odd : Bool
  /-- Whether the first coordinate of the nonce's point reaches the group order. -/
  wrapped : Bool
deriving DecidableEq, Repr

namespace Signature

/-- The two numbers in 32 octets each, and the recovery id. -/
def encode (σ : Signature) : Bytes :=
  Bytes.ofNat 32 σ.r ++ Bytes.ofNat 32 σ.s ++
    [(if σ.wrapped then 2 else 0) + (if σ.odd then 1 else 0)]

def decode? (bs : Bytes) : Option Signature :=
  match bs.drop 64 with
  | [id] =>
    if id < 4 then
      some ⟨Bytes.toNat (bs.take 32), Bytes.toNat ((bs.drop 32).take 32), id % 2 = 1, 2 ≤ id⟩
    else none
  | _ => none

end Signature

/-- The first of the generator's values that is a scalar other than zero. -/
def nonce : Nat → Generator → Option Nat
  | 0, _ => none
  | tries + 1, g =>
    let (octets, g) := g.next
    let k := Bytes.toNat octets
    if 0 < k ∧ k < order then some k else nonce tries g

def signWith (secret k z : Nat) : Option Signature := do
  let (x, y) ← (Point.generator.multiple k).affine?
  let r := x % order
  let s := invMod k order * (z + r * secret) % order
  if r = 0 ∨ s = 0 then none
  else
    let high : Bool := order / 2 < s
    let odd : Bool := y % 2 = 1
    return ⟨r, if high then order - s else s, odd != high, order ≤ x⟩

def sign (secret : Nat) (digest : Bytes) : Option Signature := do
  let k ← nonce 128 (Generator.seed (Bytes.ofNat 32 secret ++ digest))
  signWith secret k (Bytes.toNat digest % order)

def publicPoint (secret : Nat) : Point :=
  Point.generator.multiple secret

/-- The public point that a signature on a digest belongs to. -/
def recover (σ : Signature) (digest : Bytes) : Option Point := do
  let x := if σ.wrapped then σ.r + order else σ.r
  if field ≤ x ∨ σ.r = 0 ∨ σ.s = 0 then none
  else
    let nonce ← lift? x σ.odd
    let w := invMod σ.r order
    let z := Bytes.toNat digest % order
    let u := subMod 0 (z * w) order
    let v := σ.s * w % order
    return (Point.generator.multiple u).add (nonce.multiple v)

/-- Both coordinates in 32 octets each. -/
def publicOctets? (p : Point) : Option Bytes :=
  p.affine?.map fun (x, y) => Bytes.ofNat 32 x ++ Bytes.ofNat 32 y

end TronCourier.Secp256k1
