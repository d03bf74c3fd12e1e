import TronCourier.Json.Parser
import TronCourier.Json.Printer
import TronCourier.Json.Record
import TronCourier.Node.Message
import TronCourier.Text.Utf8

/-! Asking a node over HTTP. A question is a request to one of the node's
addresses together with the reading of the reply. -/

namespace TronCourier.Node

structure ClientSettings where
  fullNodeUrl : String
  /-- Where solid blocks are asked for, if not at the full node. -/
  solidNodeUrl : Option String := none
  timeoutSecs : Nat := 10
  apiKey : Option String := none
deriving DecidableEq, Repr

def ClientSettings.json? (j : Json) : Option ClientSettings := do
  let fs ← j.fields? ["full_node_url", "solidity_node_url", "timeout_secs", "api_key"]
  return {
    fullNodeUrl := ← fs.required "full_node_url" Json.str?
    solidNodeUrl := ← fs.optional "solidity_node_url" Json.str?
    timeoutSecs := ← fs.withDefault "timeout_secs" 10 (Json.nat? nat64Max)
    apiKey := ← fs.optional "api_key" Json.str? }

structure Request where
  body : Option Json
  url : String

structure Reply where
  status : Nat
  body : Bytes
  /-- Whether the whole body arrived. -/
  complete : Bool := true

inductive Delivery
  | failed (reason : String)
  | replied (reply : Reply)

structure Question (α : Type) where
  request : Request
  /-- Reads the body of a reply, which may hold a refusal. -/
  read : Json → Option (Except Error α)

/-- The answer in what became of the request. The status is looked at before the
body. -/
def Question.answer (q : Question α) (d : Delivery) : Except Error α :=
  match d with
  | .failed reason => .error (.transport q.request.url reason)
  | .replied r =>
    if r.status < 200 ∨ 300 ≤ r.status then .error (.http q.request.url r.status)
    else if !r.complete then .error (.transport q.request.url "body cut short")
    else match (Json.parse (Text.utf8Lossy r.body)).bind q.read with
      | some a => a
      | none => .error (.decode q.request.url "malformed body")

def isHeaderValue (s : String) : Bool :=
  s.toList.all fun c => c = '\t' || (0x20 ≤ c.toNat && c.toNat ≠ 0x7F)

structure Client where
  fullNodeUrl : String
  solidNodeUrl : String
  apiKey : Option String
deriving DecidableEq, Repr

def withoutSlashes (url : String) : String :=
  String.ofList (url.toList.reverse.dropWhile (· = '/')).reverse

namespace Client

def ofSettings (s : ClientSettings) : Except Error Client :=
  if s.apiKey.any fun key => !isHeaderValue key then
    .error (.transport s.fullNodeUrl "invalid api key header: failed to parse header value")
  else .ok {
    fullNodeUrl := withoutSlashes s.fullNodeUrl
    solidNodeUrl := withoutSlashes (s.solidNodeUrl.getD s.fullNodeUrl)
    apiKey := s.apiKey }

def wallet (c : Client) (path : String) : String :=
  c.fullNodeUrl ++ "/wallet/" ++ path

end Client

namespace Reading

/-- Whether a node agreed, with its code and message. -/
structure Consent where
  agreed : Bool := false
  code : Option String := none
  message : Option String := none

def consent? (j : Json) : Option Consent := do
  let fs ← j.fields? ["result", "code", "message"]
  return {
    agreed := ← fs.withDefault "result" false Json.bool?
    code := ← fs.optional "code" Json.str?
    message := ← fs.optional "message" Json.str? }

def Consent.error (c : Consent) : Error :=
  .ofRefusal c.code c.message

def energy (j : Json) : Option (Except Error Int) := do
  let fs ← j.fields? ["result", "energy_required"]
  let consent ← fs.withDefault "result" {} consent?
  let required ← fs.withDefault "energy_required" 0 Json.int64?
  return if consent.agreed then .ok required else .error consent.error

/-- How the first of a transaction's contracts ended. -/
def ending? (j : Json) : Option (Option String) := do
  let fs ← j.fields? ["ret"]
  let endings ← fs.withDefault "ret" [] (Json.listOf? fun j => do
    let fs ← j.fields? ["ret"]
    fs.optional "ret" Json.str?)
  return endings.head?.join

def dryRun (j : Json) : Option (Except Error DryRun) := do
  let fs ← j.fields? ["result", "energy_used", "energy_penalty", "constant_result", "transaction"]
  let consent ← fs.withDefault "result" {} consent?
  let energyUsed ← fs.withDefault "energy_used" 0 Json.int64?
  let energyPenalty ← fs.withDefault "energy_penalty" 0 Json.int64?
  let results ← fs.withDefault "constant_result" [] (Json.listOf? Json.str?)
  let ending ← fs.optional "transaction" ending?
  let reverted := ending.join = some "FAILED"
  let revert := if reverted then some ((consent.message.map plainMessage).getD "REVERT") else none
  return if consent.agreed then .ok { energyUsed, energyPenalty, results, revert }
    else .error consent.error

def prices (j : Json) : Option (Except Error String) := do
  let fs ← j.fields? ["prices"]
  return .ok (← fs.withDefault "prices" "" Json.str?)

def header? (j : Json) : Option (Int × Int) := do
  let fs ← j.fields? ["raw_data"]
  fs.required "raw_data" fun j => do
    let fs ← j.fields? ["number", "timestamp"]
    return (← fs.withDefault "number" 0 Json.int64?, ← fs.withDefault "timestamp" 0 Json.int64?)

def block (url : String) (j : Json) : Option (Except Error Block) := do
  let fs ← j.fields? ["blockID", "block_header"]
  let id ← fs.withDefault "blockID" "" Json.str?
  match ← fs.nullable "block_header" header? with
  | some (number, timestamp) => return .ok { number, id, timestamp }
  | none => return .error (.decode url "missing block_header")

def verdict (j : Json) : Option (Except Error Verdict) := do
  let fs ← j.fields? ["result", "code", "message", "txid"]
  let accepted ← fs.withDefault "result" false Json.bool?
  let code ← fs.optional "code" Json.str?
  let message ← fs.optional "message" Json.str?
  let id ← fs.optional "txid" Json.str?
  return .ok { accepted, code, reason := message.map plainMessage, id }

/-- An empty record says that there is no receipt. -/
def receipt (j : Json) : Option (Except Error (Option Receipt)) := do
  let fs ← j.fields? ["id", "blockNumber", "blockTimeStamp", "receipt", "result", "resMessage"]
  let id ← fs.optional "id" Json.str?
  let block ← fs.withDefault "blockNumber" 0 Json.int64?
  let blockTimestamp ← fs.withDefault "blockTimeStamp" 0 Json.int64?
  let code ← fs.optional "receipt" fun j => do
    let fs ← j.fields? ["result"]
    fs.optional "result" Json.str?
  let result ← fs.optional "result" Json.str?
  let reason ← fs.optional "resMessage" Json.str?
  return .ok (id.map fun id => {
    id, block, blockTimestamp, code := code.join, result, reason := reason.map plainMessage })

end Reading

/-- A call as nodes read it. A call value of zero is left out. -/
def Simulated.toJson (call : Simulated) : Json :=
  .obj ([("owner_address", call.owner.toJson), ("contract_address", call.contract.toJson),
      ("function_selector", .str call.method), ("parameter", .str call.parameter)] ++
    (if call.callValue = 0 then [] else [("call_value", .int call.callValue)]) ++
    [("visible", .bool true)])

namespace Client

def estimateEnergy (c : Client) (call : Simulated) : Question Int :=
  ⟨⟨some call.toJson, c.wallet "estimateenergy"⟩, Reading.energy⟩

def dryRun (c : Client) (call : Simulated) : Question DryRun :=
  ⟨⟨some call.toJson, c.wallet "triggerconstantcontract"⟩, Reading.dryRun⟩

def energyPrices (c : Client) : Question String :=
  ⟨⟨none, c.wallet "getenergyprices"⟩, Reading.prices⟩

def latestBlock (c : Client) : Question Block :=
  let url := c.wallet "getnowblock"
  ⟨⟨some (.obj []), url⟩, Reading.block url⟩

def broadcast (c : Client) (tx : SignedTransaction) : Question Verdict :=
  ⟨⟨some tx.toJson, c.wallet "broadcasttransaction"⟩, Reading.verdict⟩

def receipt (c : Client) (hash : String) (view : View) : Question (Option Receipt) :=
  let url := match view with
    | .tip => c.wallet "gettransactioninfobyid"
    | .solid => c.solidNodeUrl ++ "/walletsolidity/gettransactioninfobyid"
  ⟨⟨some (.obj [("value", .str hash)]), url⟩, Reading.receipt⟩

end Client

end TronCourier.Node
