import TronCourier.Number.Bounds

/-! Binary64 numbers in exact arithmetic. A finite number is a natural multiple
of the least positive one, 2 to the power −1074, with a sign. Its magnitude bits
and the multiple grow together, so order is the order of the bits. -/

namespace TronCourier

/-- A sign and the other 63 bits. -/
structure Binary64 where
  negative : Bool
  magnitude : Nat
deriving DecidableEq, Repr

namespace Binary64

/-- The magnitude bits of infinity; above them there is no number. -/
def top : Nat := 0x7FF0000000000000

def nan : Binary64 := ⟨false, 0x7FF8000000000000⟩

def infinity (negative : Bool) : Binary64 := ⟨negative, top⟩

def isNaN (x : Binary64) : Bool := top < x.magnitude

def bits (x : Binary64) : Nat :=
  if x.negative then 0x8000000000000000 + x.magnitude else x.magnitude

/-- How many magnitudes share an exponent. -/
def fractions : Nat := 0x10000000000000

/-- How many times 2 to the power −1074 the magnitude bits stand for. -/
def units (magnitude : Nat) : Nat :=
  if magnitude < fractions then magnitude
  else (fractions + magnitude % fractions) * Nat.pow 2 (magnitude / fractions - 1)

def one : Nat := Nat.pow 2 1074

/-- The quotient rounded to the nearest integer, a half to the even one. -/
def roundHalfEven (num den : Nat) : Nat :=
  let q := num / den
  let twice := 2 * (num % den)
  if den < twice ∨ (twice = den ∧ q % 2 = 1) then q + 1 else q

def nearest (num den : Nat) : Nat :=
  let whole := num / den
  let shift := if whole < 2 * fractions then 0 else Nat.log2 whole - 52
  min top (shift * fractions + roundHalfEven num (den * Nat.pow 2 shift))

def ofInt (i : Int) : Binary64 :=
  ⟨i < 0, nearest (i.natAbs * one) 1⟩

def ofDecimal (negative : Bool) (digits : Nat) (exponent : Int) : Binary64 :=
  let width : Int := (Nat.toDigits 10 digits).length
  if digits = 0 ∨ width + exponent < -330 then ⟨negative, 0⟩
  else if 330 < width + exponent then infinity negative
  else if 0 ≤ exponent then ⟨negative, nearest (digits * Nat.pow 10 exponent.toNat * one) 1⟩
  else ⟨negative, nearest (digits * one) (Nat.pow 10 (-exponent).toNat)⟩

def mul (x y : Binary64) : Binary64 :=
  let negative := x.negative != y.negative
  if x.isNaN || y.isNaN then nan
  else if x.magnitude = top then (if y.magnitude = 0 then nan else infinity negative)
  else if y.magnitude = top then (if x.magnitude = 0 then nan else infinity negative)
  else ⟨negative, nearest (units x.magnitude * units y.magnitude) one⟩

/-- `r * x ^ n` by squaring `x` and multiplying it in at each odd digit of `n`,
rounding after every product. -/
def powLoop (r x : Binary64) (n : Nat) : Binary64 :=
  let r := if n % 2 = 1 then r.mul x else r
  if n / 2 = 0 then r else powLoop r (x.mul x) (n / 2)
termination_by n
decreasing_by omega

def pow (x : Binary64) (n : Nat) : Binary64 :=
  powLoop (ofInt 1) x n

/-- The rank in the order of numbers; both zeros share one. -/
def rank (x : Binary64) : Int :=
  if x.negative then -(x.magnitude : Int) else x.magnitude

/-- Comparison of numbers, false when either side is none. -/
def le (x y : Binary64) : Bool :=
  !x.isNaN && !y.isNaN && x.rank ≤ y.rank

/-- The greatest integer below, clamped to a range. Not a number gives zero. -/
def floorWithin (low high : Int) (x : Binary64) : Int :=
  if x.isNaN then 0
  else if x.magnitude = top then (if x.negative then low else high)
  else
    let n : Int := units x.magnitude
    clamp low high ((if x.negative then -n else n) / (one : Int))

end Binary64

end TronCourier
