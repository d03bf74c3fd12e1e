import TronCourier.Number.Binary64
import TronCourier.Text.Integer

/-! Decimal text of binary64 numbers. Reading rounds to nearest. Writing finds
the fewest digits that read back, and of those the nearest. -/

namespace TronCourier

/-- A positive decimal: its digits, most significant first, and the power of ten
of the digit in front. -/
structure Decimal where
  digits : List Char
  exponent : Int
deriving DecidableEq, Repr

namespace Binary64

/-- Whether `n` times ten to the power `e` rounds to the positive finite number
with these magnitude bits: it lies between the halfway points to both
neighbours, which belong to an even number. -/
def readsBack (magnitude n : Nat) (e : Int) : Bool :=
  let scale := Nat.pow 10 (-e).toNat
  let value := 2 * n * Nat.pow 10 e.toNat * one
  let low := (units (magnitude - 1) + units magnitude) * scale
  let high := (units magnitude + units (magnitude + 1)) * scale
  if magnitude % 2 = 0 then low ≤ value && value ≤ high else low < value && value < high

/-- The first power of ten, tried upwards from `e`, that exceeds the number. -/
def powerAbove (u : Nat) : Nat → Int → Int
  | 0, e => e
  | fuel + 1, e =>
    if u * Nat.pow 10 (-e).toNat < Nat.pow 10 e.toNat * one then e else powerAbove u fuel (e + 1)

/-- The nearest multiple of ten to the power `e`, if one reads back. -/
def onGrid (magnitude : Nat) (e : Int) : Option Nat :=
  let num := units magnitude * Nat.pow 10 (-e).toNat
  let den := one * Nat.pow 10 e.toNat
  let below := num / den
  let lower := readsBack magnitude below e
  let upper := readsBack magnitude (below + 1) e
  if lower && upper then some (if 2 * (num % den) ≤ den then below else below + 1)
  else if lower then some below
  else if upper then some (below + 1)
  else none

/-- The shortest decimal of a positive finite number whose value is below ten to
the power `above`, tried with more and more digits. -/
def shortestFrom (magnitude : Nat) (above : Int) : Nat → Nat → Decimal
  | 0, _ => ⟨['0'], 0⟩
  | fuel + 1, count =>
    match onGrid magnitude (above - count) with
    | some n =>
      let ds := Nat.toDigits 10 n
      let kept := (ds.reverse.dropWhile (· == '0')).reverse
      ⟨kept, above - count + ds.length - 1⟩
    | none => shortestFrom magnitude above fuel (count + 1)

def shortest (magnitude : Nat) : Decimal :=
  shortestFrom magnitude (powerAbove (units magnitude) 700 (-330)) 20 1

def positional (d : Decimal) (pointZero : Bool) : List Char :=
  let zeros (n : Int) : List Char := List.replicate n.toNat '0'
  let count : Int := d.digits.length
  if d.exponent < 0 then '0' :: '.' :: zeros (-d.exponent - 1) ++ d.digits
  else if count ≤ d.exponent + 1 then
    d.digits ++ zeros (d.exponent + 1 - count) ++ (if pointZero then ['.', '0'] else [])
  else d.digits.take (d.exponent + 1).toNat ++ '.' :: d.digits.drop (d.exponent + 1).toNat

def withSign (x : Binary64) (text : List Char) : String :=
  String.ofList (if x.negative then '-' :: text else text)

/-- The text for people: always positional, and a whole number has no point. -/
def display (x : Binary64) : String :=
  if x.isNaN then "NaN"
  else if x.magnitude = top then x.withSign "inf".toList
  else if x.magnitude = 0 then x.withSign ['0']
  else x.withSign (positional (shortest x.magnitude) false)

/-- The text for data: a point or an exponent is always there. -/
def literal (x : Binary64) : String :=
  if x.magnitude = 0 then x.withSign "0.0".toList
  else
    let d := shortest x.magnitude
    if -5 ≤ d.exponent ∧ d.exponent ≤ 15 then x.withSign (positional d true)
    else
      let mantissa := match d.digits with
        | [] => []
        | [c] => [c]
        | c :: r => c :: '.' :: r
      x.withSign (mantissa ++ 'e' :: (toString d.exponent).toList)

end Binary64

namespace Text

def spanDigits (cs : List Char) : List Char × List Char :=
  cs.span fun c => (digit? c).isSome

def digitsValue (cs : List Char) : Nat :=
  cs.foldl (fun n c => n * 10 + (digit? c).getD 0) 0

/-- An exponent after its letter: a sign at most, and at least one digit. -/
def exponent? (cs : List Char) : Option Int :=
  let (negative, ds) := match cs with
    | '-' :: r => (true, r)
    | '+' :: r => (false, r)
    | r => (false, r)
  match spanDigits ds with
  | ([], _) => none
  | (shown, []) => some (if negative then -(digitsValue shown : Int) else digitsValue shown)
  | _ => none

/-- An unsigned number: digits with at most one point, at least one digit, and
an optional exponent. -/
def readUnsigned (negative : Bool) (cs : List Char) : Option Binary64 := do
  let (whole, rest) := spanDigits cs
  let (fraction, rest) := match rest with
    | '.' :: r => spanDigits r
    | r => ([], r)
  if whole.isEmpty && fraction.isEmpty then none
  else
    let e ← match rest with
      | [] => some 0
      | c :: r => if c = 'e' ∨ c = 'E' then exponent? r else none
    return Binary64.ofDecimal negative (digitsValue (whole ++ fraction)) (e - fraction.length)

/-- A number as people write it: decimal, or a word for infinity or for no
number, with an optional sign. -/
def readBinary64 (s : String) : Option Binary64 :=
  let (negative, cs) := match s.toList with
    | '-' :: r => (true, r)
    | '+' :: r => (false, r)
    | r => (false, r)
  let word := String.ofList (cs.map Char.toLower)
  if word = "inf" ∨ word = "infinity" then some (Binary64.infinity negative)
  else if word = "nan" then some Binary64.nan
  else readUnsigned negative cs

end Text

end TronCourier
