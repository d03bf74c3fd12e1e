import TronCourier.Bytes
import TronCourier.Store.Table

/-! Where a path leads from a directory whose files are known. A path is walked name
by name. Directories above exist, but nothing else in them is known. -/

namespace TronCourier.CommandLine

inductive Lookup
  | absent
  | unreadable (reason : String)
  | content (octets : Bytes)
deriving DecidableEq, Repr

inductive Spot
  | home
  /-- In a directory above. -/
  | above
  | file (octets : Bytes)
  | nowhere
deriving DecidableEq, Repr

/-- Walks on by one name. An empty one, as between two slashes, stays in a directory,
and nothing leads on from a file. -/
def Spot.step (files : Table String Bytes) (s : Spot) (name : String) : Spot :=
  match s with
  | home =>
    if name = "" ∨ name = "." then home
    else if name = ".." then above
    else match files.get? name with
      | some octets => file octets
      | none => nowhere
  | above => if name = "" ∨ name = "." ∨ name = ".." then above else nowhere
  | file _ | nowhere => nowhere

def Spot.lookup : Spot → Lookup
  | home | above => .unreadable "Is a directory (os error 21)"
  | file octets => .content octets
  | nowhere => .absent

def Lookup.among (files : Table String Bytes) (path : String) : Lookup :=
  let start : Spot :=
    if path = "" then .nowhere
    else if path.toList.head? = some '/' then .above
    else .home
  ((path.splitOn "/").foldl (Spot.step files) start).lookup

end TronCourier.CommandLine
