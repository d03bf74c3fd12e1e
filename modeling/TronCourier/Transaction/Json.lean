import TronCourier.Address
import TronCourier.Json.Record

/-! Transactions as nodes take them in JSON: octets are hexadecimal text and
addresses are base58check text. -/

namespace TronCourier

structure TriggerJson where
  data : String
  owner : Address
  contract : Address
  callValue : Int
deriving DecidableEq, Repr

structure ContractJson where
  trigger : TriggerJson
  typeUrl : String
  kind : String
deriving DecidableEq, Repr

/-- What is hashed and signed of a transaction. -/
structure RawJson where
  contracts : List ContractJson
  refBlockBytes : String
  refBlockHash : String
  expiration : Int
  feeLimit : Int
  timestamp : Int
deriving DecidableEq, Repr

structure SignedTransaction where
  id : String
  raw : RawJson
  rawHex : String
  signatures : List String
  visible : Bool
deriving DecidableEq, Repr

namespace TriggerJson

/-- A call value of zero is left out. -/
def toJson (t : TriggerJson) : Json :=
  .obj ([("data", .str t.data), ("owner_address", t.owner.toJson),
      ("contract_address", t.contract.toJson)] ++
    (if t.callValue = 0 then [] else [("call_value", .int t.callValue)]))

def json? (j : Json) : Option TriggerJson := do
  let fs ← j.fields? ["data", "owner_address", "contract_address", "call_value"]
  return {
    data := ← fs.required "data" Json.str?
    owner := ← fs.required "owner_address" Address.json?
    contract := ← fs.required "contract_address" Address.json?
    callValue := ← fs.withDefault "call_value" 0 Json.int64? }

end TriggerJson

namespace ContractJson

def toJson (c : ContractJson) : Json :=
  .obj [("parameter", .obj [("value", c.trigger.toJson), ("type_url", .str c.typeUrl)]),
    ("type", .str c.kind)]

def parameter? (j : Json) : Option (TriggerJson × String) := do
  let fs ← j.fields? ["value", "type_url"]
  return (← fs.required "value" TriggerJson.json?, ← fs.required "type_url" Json.str?)

def json? (j : Json) : Option ContractJson := do
  let fs ← j.fields? ["parameter", "type"]
  let (trigger, typeUrl) ← fs.required "parameter" parameter?
  return { trigger, typeUrl, kind := ← fs.required "type" Json.str? }

end ContractJson

namespace RawJson

def toJson (r : RawJson) : Json :=
  .obj [("contract", .arr (r.contracts.map ContractJson.toJson)),
    ("ref_block_bytes", .str r.refBlockBytes), ("ref_block_hash", .str r.refBlockHash),
    ("expiration", .int r.expiration), ("fee_limit", .int r.feeLimit),
    ("timestamp", .int r.timestamp)]

def json? (j : Json) : Option RawJson := do
  let fs ← j.fields? ["contract", "ref_block_bytes", "ref_block_hash", "expiration", "fee_limit",
    "timestamp"]
  return {
    contracts := ← fs.required "contract" (Json.listOf? ContractJson.json?)
    refBlockBytes := ← fs.required "ref_block_bytes" Json.str?
    refBlockHash := ← fs.required "ref_block_hash" Json.str?
    expiration := ← fs.required "expiration" Json.int64?
    feeLimit := ← fs.required "fee_limit" Json.int64?
    timestamp := ← fs.required "timestamp" Json.int64? }

end RawJson

namespace SignedTransaction

def toJson (t : SignedTransaction) : Json :=
  .obj [("txID", .str t.id), ("raw_data", t.raw.toJson), ("raw_data_hex", .str t.rawHex),
    ("signature", .arr (t.signatures.map .str)), ("visible", .bool t.visible)]

def json? (j : Json) : Option SignedTransaction := do
  let fs ← j.fields? ["txID", "raw_data", "raw_data_hex", "signature", "visible"]
  return {
    id := ← fs.required "txID" Json.str?
    raw := ← fs.required "raw_data" RawJson.json?
    rawHex := ← fs.required "raw_data_hex" Json.str?
    signatures := ← fs.required "signature" (Json.listOf? Json.str?)
    visible := ← fs.required "visible" Json.bool? }

end SignedTransaction

end TronCourier
