import TronCourier.Abi.Encode
import TronCourier.Hash.Sha256
import TronCourier.Transaction.Json
import TronCourier.Wire.Message

/-! From a contract call to the octets that are signed. The transaction's id is
the hash of these octets. -/

namespace TronCourier

inductive RefBlockError
  | negativeNumber (number : Int)
  | badId (cause : Text.HexError)
  | idLength (count : Nat)
  | badField (name : String) (cause : Text.HexError)
  | fieldLength (name : String) (wanted got : Nat)
deriving DecidableEq, Repr

def RefBlockError.message : RefBlockError → String
  | negativeNumber number => "negative block number " ++ toString number
  | badId cause => "block id: " ++ cause.message
  | idLength count => "block id must be 32 bytes, got " ++ toString count
  | badField name cause => name ++ ": " ++ cause.message
  | fieldLength name wanted got =>
    name ++ " must be " ++ toString wanted ++ " bytes, got " ++ toString got

inductive BuildError
  | abi (cause : Abi.Error)
  | unsupportedContract (name : String)
  | contractCount (count : Nat)
  | refBlock (cause : RefBlockError)
  | negativeFeeLimit (limit : Int)
  | callData (cause : Text.HexError)
deriving DecidableEq, Repr

namespace BuildError

def message : BuildError → String
  | abi cause => "ABI encoding failed: " ++ cause.message
  | unsupportedContract name => "Unsupported contract type: " ++ name
  | contractCount count => "Expected exactly one contract, got " ++ toString count
  | refBlock cause => "Invalid reference block: " ++ cause.message
  | negativeFeeLimit limit => "Encoding error: negative fee_limit " ++ toString limit
  | callData cause => "Encoding error: call data: " ++ cause.message

def category : BuildError → String
  | abi _ => "abi"
  | unsupportedContract _ | contractCount _ => "contract"
  | refBlock _ => "ref_block"
  | negativeFeeLimit _ | callData _ => "encoding"

/-- The same input fails in the same way again. -/
def isRetryable (_ : BuildError) : Bool := false

end BuildError

/-- The recent block that a transaction refers to: the end of its number and the
middle of its id. -/
structure BlockRef where
  number : Bytes
  hash : Bytes
deriving DecidableEq, Repr

namespace BlockRef

def ofBlock (number : Int) (id : String) : Except RefBlockError BlockRef :=
  if number < 0 then .error (.negativeNumber number)
  else match Text.unhex id with
    | .error e => .error (.badId e)
    | .ok bs =>
      if bs.length = 32 then .ok ⟨Bytes.ofInt 2 number, (bs.drop 8).take 8⟩
      else .error (.idLength bs.length)

end BlockRef

structure ContractCall where
  owner : Address
  contract : Address
  callValue : Int
  data : Bytes
deriving DecidableEq, Repr

/-- How long a transaction is valid for if nothing else is said, in milliseconds. -/
def defaultLifetime : Int := 30000

namespace RawJson

def ofCall (call : ContractCall) (block : BlockRef) (feeLimit timestamp : Int)
    (expiration : Option Int) : RawJson where
  contracts := [{
    trigger := {
      data := Text.hex call.data
      owner := call.owner
      contract := call.contract
      callValue := call.callValue }
    typeUrl := Wire.triggerTypeUrl
    kind := Wire.ContractKind.triggerSmart.name }]
  refBlockBytes := Text.hex block.number
  refBlockHash := Text.hex block.hash
  expiration := expiration.getD (addClamped timestamp defaultLifetime)
  feeLimit
  timestamp

def fixedField (name text : String) (count : Nat) : Except BuildError Bytes :=
  match Text.unhex text with
  | .error e => .error (.refBlock (.badField name e))
  | .ok bs =>
    if bs.length = count then .ok bs else .error (.refBlock (.fieldLength name count bs.length))

/-- The one contract of a transaction, which has to be a contract call. -/
def soleContract (raw : RawJson) : Except BuildError ContractJson :=
  match raw.contracts with
  | [c] =>
    if Wire.ContractKind.ofName? c.kind ≠ some .triggerSmart then
      .error (.unsupportedContract c.kind)
    else if c.typeUrl ≠ Wire.triggerTypeUrl then .error (.unsupportedContract c.typeUrl)
    else .ok c
  | cs => .error (.contractCount cs.length)

def toWire (raw : RawJson) : Except BuildError Wire.Raw := do
  let contract ← raw.soleContract
  let refBlockBytes ← fixedField "ref_block_bytes" raw.refBlockBytes 2
  let refBlockHash ← fixedField "ref_block_hash" raw.refBlockHash 8
  if raw.feeLimit < 0 then .error (.negativeFeeLimit raw.feeLimit)
  else
    let data ← (Text.unhex contract.trigger.data).mapError .callData
    let trigger : Wire.Trigger := {
      owner := contract.trigger.owner.toBytes
      contract := contract.trigger.contract.toBytes
      callValue := contract.trigger.callValue
      data }
    return {
      refBlockBytes
      refBlockHash
      expiration := raw.expiration
      contracts := [{
        kind := Wire.ContractKind.triggerSmart.number
        parameter := some { typeUrl := Wire.triggerTypeUrl, value := trigger.encode } }]
      timestamp := raw.timestamp
      feeLimit := raw.feeLimit }

end RawJson

structure UnsignedTransaction where
  raw : RawJson
  octets : Bytes
  id : Bytes
deriving DecidableEq, Repr

namespace UnsignedTransaction

def ofRaw (raw : RawJson) : Except BuildError UnsignedTransaction := do
  let octets := (← raw.toWire).encode
  return { raw, octets, id := sha256 octets }

def ofCall (call : ContractCall) (block : BlockRef) (feeLimit timestamp : Int)
    (expiration : Option Int) : Except BuildError UnsignedTransaction :=
  ofRaw (RawJson.ofCall call block feeLimit timestamp expiration)

def withSignature (t : UnsignedTransaction) (signature : Bytes) : SignedTransaction where
  id := Text.hex t.id
  raw := t.raw
  rawHex := Text.hex t.octets
  signatures := [Text.hex signature]
  visible := true

end UnsignedTransaction

end TronCourier
