/-! Decimal integers with an optional sign, read into a closed range. Digits are
ASCII, and the first offending character decides the error. -/

namespace TronCourier.Text

inductive IntegerError
  | empty
  | badDigit
  | tooLarge
  | tooSmall
deriving DecidableEq, Repr

namespace IntegerError

def message : IntegerError → String
  | empty => "cannot parse integer from empty string"
  | badDigit => "invalid digit found in string"
  | tooLarge => "number too large to fit in target type"
  | tooSmall => "number too small to fit in target type"

end IntegerError

def digit? (c : Char) : Option Nat :=
  if '0' ≤ c ∧ c ≤ '9' then some (c.toNat - 48) else none

/-- Appends digits to `acc` as long as the value stays within `limit`. -/
def readDigits (limit : Nat) (overflow : IntegerError) : Nat → List Char → Except IntegerError Nat
  | acc, [] => .ok acc
  | acc, c :: r =>
    match digit? c with
    | none => .error .badDigit
    | some d =>
      let next := acc * 10 + d
      if limit < next then .error overflow else readDigits limit overflow next r

/-- A natural number up to `limit`. A plus sign may lead, a minus sign may not. -/
def readNat (limit : Nat) : List Char → Except IntegerError Nat
  | [] => .error .empty
  | ['+'] => .error .badDigit
  | '+' :: r => readDigits limit .tooLarge 0 r
  | cs => readDigits limit .tooLarge 0 cs

def readInt (below above : Nat) : List Char → Except IntegerError Int
  | ['-'] => .error .badDigit
  | '-' :: r => (readDigits below .tooSmall 0 r).map fun n => -(n : Int)
  | cs => (readNat above cs).map Int.ofNat

def readInt64 : List Char → Except IntegerError Int :=
  readInt 0x8000000000000000 0x7FFFFFFFFFFFFFFF

end TronCourier.Text
