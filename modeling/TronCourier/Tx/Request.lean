import TronCourier.Number.Bounds
import TronCourier.Address
import TronCourier.Json.Record
import TronCourier.Tx.Stage

/-! Requests for contract calls, and the transactions that they become. -/

namespace TronCourier

structure Meta where
  messageIds : Option (List String)
deriving DecidableEq, Repr

namespace Meta

/-- The message of a request that belongs to exactly one. -/
def soleMessage? (m : Meta) : Option String :=
  match m.messageIds with
  | some [id] => some id
  | _ => none

def json? (j : Json) : Option Meta := do
  let fs ← j.fields? ["message_ids"]
  return ⟨← fs.optional "message_ids" (Json.listOf? Json.str?)⟩

def toJson (m : Meta) : Json :=
  .obj [("message_ids", (m.messageIds.map fun ids => Json.arr (ids.map .str)).getD .null)]

end Meta

structure Request where
  /-- Without an id a fresh one is given. -/
  id : Option String := none
  sender : Address
  contract : Address
  method : String
  params : List Json := []
  about : Option Meta := none
deriving Repr

namespace Request

def json? (j : Json) : Option Request := do
  let fs ← j.fields? ["id", "from", "contract", "method", "params", "meta"]
  return {
    id := ← fs.optional "id" Json.str?
    sender := ← fs.required "from" Address.json?
    contract := ← fs.required "contract" Address.json?
    method := ← fs.required "method" Json.str?
    params := ← fs.withDefault "params" [] fun j => (j.arr?).bind Json.heldItems?
    about := ← fs.optional "meta" Meta.json? }

def toJson (r : Request) : Json :=
  .obj [("id", (r.id.map .str).getD .null), ("from", r.sender.toJson),
    ("contract", r.contract.toJson), ("method", .str r.method), ("params", .arr r.params),
    ("meta", (r.about.map Meta.toJson).getD .null)]

end Request

structure Tx where
  id : String
  sender : Address
  contract : Address
  method : String
  params : List Json
  attempt : Nat := 1
  energyBumps : Nat := 0
  outOfTime : Nat := 0
  stage : Stage := .pending
  about : Option Meta := none
  key : Option String := none
deriving Repr

def Tx.ofRequest (id : String) (r : Request) : Tx where
  id
  sender := r.sender
  contract := r.contract
  method := r.method
  params := r.params
  about := r.about

/-- The key under which a message is sent for the time that follows its retries.
The count stops at the largest number of 32 bits. -/
def idempotencyKey (messageId : String) (retries : Nat) : String :=
  messageId ++ "-" ++ toString (min (retries + 1) nat32Max)

end TronCourier
