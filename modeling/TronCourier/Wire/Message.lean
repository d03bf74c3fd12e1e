import TronCourier.Wire.Format
import TronCourier.Text.Utf8

/-! The binary messages of a transaction that calls a contract. The fields stand
in the order of their tags. -/

namespace TronCourier.Wire

/-- A message of some type, with the type's address. -/
structure Any where
  typeUrl : String := ""
  value : Bytes := []
deriving DecidableEq, Repr

def Any.encode (m : Any) : Bytes :=
  bytesField 1 (Text.utf8 m.typeUrl) ++ bytesField 2 m.value

structure Trigger where
  owner : Bytes := []
  contract : Bytes := []
  callValue : Int := 0
  data : Bytes := []
  callTokenValue : Int := 0
  tokenId : Int := 0
deriving DecidableEq, Repr

def Trigger.encode (m : Trigger) : Bytes :=
  bytesField 1 m.owner ++ (bytesField 2 m.contract ++ (intField 3 m.callValue ++
    (bytesField 4 m.data ++ (intField 5 m.callTokenValue ++ intField 6 m.tokenId))))

structure Contract where
  kind : Int := 0
  parameter : Option Any := none
deriving DecidableEq, Repr

def Contract.encode (m : Contract) : Bytes :=
  intField 1 m.kind ++ messageField 2 Any.encode m.parameter

structure Raw where
  refBlockBytes : Bytes := []
  refBlockNum : Int := 0
  refBlockHash : Bytes := []
  expiration : Int := 0
  data : Bytes := []
  contracts : List Contract := []
  timestamp : Int := 0
  feeLimit : Int := 0
deriving DecidableEq, Repr

def Raw.encode (m : Raw) : Bytes :=
  bytesField 1 m.refBlockBytes ++ (intField 3 m.refBlockNum ++ (bytesField 4 m.refBlockHash ++
    (intField 8 m.expiration ++ (bytesField 10 m.data ++
      (repeatedField 11 Contract.encode m.contracts ++
        (intField 14 m.timestamp ++ intField 18 m.feeLimit))))))

structure Transaction where
  raw : Option Raw := none
  signatures : List Bytes := []
deriving DecidableEq, Repr

def Transaction.encode (m : Transaction) : Bytes :=
  messageField 1 Raw.encode m.raw ++ repeatedField 2 id m.signatures

inductive ContractKind
  | accountCreate
  | transfer
  | transferAsset
  | createSmart
  | triggerSmart
deriving DecidableEq, Repr

namespace ContractKind

def all : List ContractKind :=
  [accountCreate, transfer, transferAsset, createSmart, triggerSmart]

def number : ContractKind → Int
  | accountCreate => 0
  | transfer => 1
  | transferAsset => 2
  | createSmart => 30
  | triggerSmart => 31

def name : ContractKind → String
  | accountCreate => "AccountCreateContract"
  | transfer => "TransferContract"
  | transferAsset => "TransferAssetContract"
  | createSmart => "CreateSmartContract"
  | triggerSmart => "TriggerSmartContract"

def ofName? (s : String) : Option ContractKind :=
  all.find? fun k => k.name == s

def ofNumber? (n : Int) : Option ContractKind :=
  all.find? fun k => k.number == n

end ContractKind

def triggerTypeUrl : String :=
  "type.googleapis.com/protocol.TriggerSmartContract"

end TronCourier.Wire
