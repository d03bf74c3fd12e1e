import TronCourier.Transaction.Json

/-! What a node is asked and what it answers. -/

namespace TronCourier.Node

inductive Error
  | transport (endpoint reason : String)
  | http (endpoint : String) (status : Nat)
  | decode (endpoint reason : String)
  | refused (code reason : String)
  | estimateUnsupported
deriving DecidableEq, Repr

namespace Error

def message : Error → String
  | transport endpoint reason => "Transport error: " ++ reason ++ " (endpoint: " ++ endpoint ++ ")"
  | http endpoint status =>
    "HTTP status " ++ toString status ++ " (endpoint: " ++ endpoint ++ ")"
  | decode endpoint reason => "Decode error: " ++ reason ++ " (endpoint: " ++ endpoint ++ ")"
  | refused code reason => "Node error " ++ code ++ ": " ++ reason
  | estimateUnsupported => "Node does not support estimate energy"

def category : Error → String
  | transport _ _ => "transport"
  | http _ _ => "http"
  | decode _ _ => "decode"
  | refused _ _ => "node"
  | estimateUnsupported => "unsupported"

/-- Whether the same question may be answered another time. -/
def isRetryable : Error → Bool
  | transport _ _ => true
  | http _ status => status == 429 || (500 ≤ status && status < 600)
  | _ => false

end Error

/-- A call to be simulated: the method's signature as text, and the encoded
parameters in hexadecimal. -/
structure Simulated where
  owner : Address
  contract : Address
  method : String
  parameter : String
  callValue : Int := 0
deriving DecidableEq, Repr

structure DryRun where
  energyUsed : Int
  energyPenalty : Int
  results : List String := []
  /-- There if the call was reverted. -/
  revert : Option String := none
deriving DecidableEq, Repr

structure Block where
  number : Int
  id : String
  timestamp : Int
deriving DecidableEq, Repr

structure Verdict where
  accepted : Bool
  code : Option String := none
  reason : Option String := none
  id : Option String := none
deriving DecidableEq, Repr

namespace Verdict

def success (id : String) : Verdict :=
  { accepted := true, id := some id }

def failure (code reason : String) : Verdict :=
  { accepted := false, code := some code, reason := some reason }

/-- The codes of a node that may take the same transaction a little later. -/
def busyCodes : List String :=
  ["SERVER_BUSY", "BLOCK_UNSOLIDIFIED"]

def isBusy (v : Verdict) : Bool :=
  v.code.any busyCodes.contains

end Verdict

structure Receipt where
  id : String
  block : Int := 0
  blockTimestamp : Int := 0
  /-- How the contract's execution ended. -/
  code : Option String := none
  result : Option String := none
  reason : Option String := none
deriving DecidableEq, Repr

def Receipt.failed (r : Receipt) : Bool :=
  r.result == some "FAILED"

/-- The newest blocks may still be replaced; solid ones may not. -/
inductive View
  | tip
  | solid
deriving DecidableEq, Repr

end TronCourier.Node
