import TronCourier.Number.Decimal

/-! The values of JSON texts. Integers within 64 bits are kept apart from other
numbers, and the members of an object keep their order and their repetitions. -/

namespace TronCourier

inductive Json
  | null
  | bool (b : Bool)
  | int (n : Int)
  | real (x : Binary64)
  | str (s : String)
  | arr (items : List Json)
  | obj (members : List (String × Json))
  /-- Well formed, but beyond what can be held: a number out of range, half of a
  surrogate pair, or too many levels. It may be skipped and never be read. -/
  | beyond
deriving Inhabited, Repr, BEq

namespace Json

def str? : Json → Option String
  | str s => some s
  | _ => none

def bool? : Json → Option Bool
  | bool b => some b
  | _ => none

def arr? : Json → Option (List Json)
  | arr items => some items
  | _ => none

/-- An integer within a range. Other numbers are refused, whole ones too. -/
def int? (low high : Int) : Json → Option Int
  | int n => if low ≤ n ∧ n ≤ high then some n else none
  | _ => none

def nat? (high : Nat) (j : Json) : Option Nat :=
  (j.int? 0 high).map Int.toNat

def int64? : Json → Option Int :=
  int? int64Min int64Max

def binary64? : Json → Option Binary64
  | int n => some (Binary64.ofInt n)
  | real x => some x
  | _ => none

def listOf? (read : Json → Option α) (j : Json) : Option (List α) :=
  j.arr?.bind fun items => items.mapM read

def orNull? (read : Json → Option α) : Json → Option (Option α)
  | null => some none
  | j => (read j).map some

mutual

/-- The value as it is, unless a part of it cannot be held. -/
def held? : Json → Option Json
  | beyond => none
  | arr items => (heldItems? items).map arr
  | obj members => (heldMembers? members).map obj
  | j => some j

def heldItems? : List Json → Option (List Json)
  | [] => some []
  | j :: r => do return (← held? j) :: (← heldItems? r)

def heldMembers? : List (String × Json) → Option (List (String × Json))
  | [] => some []
  | (k, j) :: r => do return (k, ← held? j) :: (← heldMembers? r)

end

end Json

end TronCourier
