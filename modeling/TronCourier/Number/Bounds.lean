/-! The bounds of numbers of fixed width. Sums and products of integers of 64 bits
are clamped to the bounds. -/

namespace TronCourier

def nat16Max : Nat := 0xFFFF

def nat32Max : Nat := 0xFFFFFFFF

def nat64Max : Nat := 0xFFFFFFFFFFFFFFFF

def int64Min : Int := -0x8000000000000000

def int64Max : Int := 0x7FFFFFFFFFFFFFFF

def clamp (low high i : Int) : Int :=
  max low (min high i)

def addClamped (a b : Int) : Int :=
  clamp int64Min int64Max (a + b)

def mulClamped (a b : Int) : Int :=
  clamp int64Min int64Max (a * b)

theorem clamp_mem {low high i : Int} (h : low ≤ high) :
    low ≤ clamp low high i ∧ clamp low high i ≤ high := by
  unfold clamp
  omega

end TronCourier
