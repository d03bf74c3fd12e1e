import TronCourier.Hash.Sha256
import TronCourier.Simulation.Clockwork

/-! Surroundings for a simulation: some node, signatures that need no keys, and a
record of messages. -/

namespace TronCourier.Simulation

abbrev Signer := Address → Option Bytes → Except KeystoreError Bytes

/-- Signs for known accounts with a hash of the account and the digest. -/
def hashSigner (known : List Address) : Signer := fun a digest =>
  if known.contains a then
    match digest with
    | none => .ok []
    | some d =>
      let half := sha256 (a.toBytes ++ d)
      .ok (half ++ (half ++ [0]))
  else .error (.unknownAddress a)

def Signer.offline (s : Signer) : Signer := fun a digest =>
  match s a none, digest with
  | .ok _, some _ => .error (.signing "hsm offline")
  | r, _ => r

/-- The account that signs in a simulation if no other is named. -/
def mainAccount : Address := .ofHash (List.replicate 20 0x11)

/-- The contract that is called if no other is named. -/
def mainContract : Address := .ofHash (List.replicate 20 0xCC)

/-- The call that is made if no other is named. -/
def mainRequest : Request where
  sender := mainAccount
  contract := mainContract
  method := "transfer(address,uint256)"
  params := [.str "address", .str mainContract.toBase58, .str "uint256", .str "1000"]

structure Messages where
  retries : Table String Nat := .empty
  failing : Bool := false
  calls : Nat := 0

def Messages.ask (message : String) : StateM Messages (Except String Nat) := do
  let r ← get
  set { r with calls := r.calls + 1 }
  return if r.failing then .error "status backend unavailable"
    else .ok ((r.retries.get? message).getD 0)

structure World (ν : Type) where
  node : ν
  messages : Messages := {}

namespace World

variable {ν α : Type}

def onNode (question : StateM ν α) : StateM (World ν) α := fun w =>
  let (a, node) := question.run w.node
  (a, { w with node })

def onMessages (question : StateM Messages α) : StateM (World ν) α := fun w =>
  let (a, messages) := question.run w.messages
  (a, { w with messages })

def surroundings (node : Node.Service ν) (signer : Signer) : Surroundings (World ν) where
  estimate call := onNode (node.estimate call)
  dryRun call := onNode (node.dryRun call)
  prices := onNode node.prices
  block := onNode node.block
  broadcast tx := onNode (node.broadcast tx)
  receipt hash view := onNode (node.receipt hash view)
  sign a digest := pure (signer a digest)
  retries message := onMessages (Messages.ask message)

end World

end TronCourier.Simulation
