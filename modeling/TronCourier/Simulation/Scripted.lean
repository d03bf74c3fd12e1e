import TronCourier.Abi.Encode
import TronCourier.Node.Service
import TronCourier.Simulation.Chain
import TronCourier.Store.Table

/-! A node that answers from a script, and keeps a record of what it was asked. The
script is looked up by the method of the call. -/

namespace TronCourier.Simulation

structure BlockPlan where
  number : Option Int := none
  id : Option String := none
  timestamp : Option Int := none
deriving DecidableEq, Repr

structure ReceiptPlan where
  code : Option String
  block : Option Int := none
  failed : Bool := false
  reason : Option String := none
deriving DecidableEq, Repr

abbrev Planned (α : Type) := List (Except Node.Error α)

structure ReceiptScript where
  tip : Planned (Option ReceiptPlan) := []
  solid : Planned (Option ReceiptPlan) := []

structure MethodScript where
  estimates : Planned Int := []
  dryRuns : Planned Node.DryRun := []
  /-- Refusals; nothing stands for acceptance. -/
  verdicts : Planned (Option Node.Verdict) := []
  receipts : List ReceiptScript := []

inductive Asked
  | estimate (call : Node.Simulated)
  | dryRun (call : Node.Simulated)
  | broadcast (tx : SignedTransaction)
  | receipt (view : Node.View) (attempt : Nat)

/-- A transaction that was accepted: its method, how many of the method had been
accepted before, and the height of the chain. -/
structure Accepted where
  method : String
  attempt : Nat
  height : Int
deriving DecidableEq, Repr

structure MethodState where
  script : MethodScript := {}
  accepted : Nat := 0
  asked : List (Nat × Asked) := []

structure Scripted where
  chain : Chain := {}
  prices : Planned String := []
  blocks : Planned BlockPlan := []
  methods : Table String MethodState := .empty
  accepted : Table String Accepted := .empty
  priceCalls : Nat := 0
  blockCalls : Nat := 0

namespace Scripted

def standardFeed : String := "0:100,1606537680000:420"

def standardEnergy : Int := 14000

def method (n : Scripted) (name : String) : MethodState :=
  (n.methods.get? name).getD {}

/-- Records a question about a method and changes the method's state. -/
def note (now : Nat) (name : String) (asked : Asked) (change : MethodState → MethodState)
    (n : Scripted) : Scripted :=
  let s := change (n.method name)
  { n with methods := n.methods.insert name { s with asked := s.asked ++ [(now, asked)] } }

def estimate (now : Nat) (call : Node.Simulated) : StateM Scripted (Except Node.Error Int) := do
  let n ← get
  let (answer, estimates) := nextAnswer (.ok standardEnergy) (n.method call.method).script.estimates
  set (n.note now call.method (.estimate call) fun s =>
    { s with script := { s.script with estimates } })
  return answer

def dryRun (now : Nat) (call : Node.Simulated) :
    StateM Scripted (Except Node.Error Node.DryRun) := do
  let n ← get
  let standard := Except.ok { energyUsed := standardEnergy, energyPenalty := 0 }
  let (answer, dryRuns) := nextAnswer standard (n.method call.method).script.dryRuns
  set (n.note now call.method (.dryRun call) fun s =>
    { s with script := { s.script with dryRuns } })
  return answer

def energyPrices : StateM Scripted (Except Node.Error String) := do
  let n ← get
  let (answer, prices) := nextAnswer (.ok standardFeed) n.prices
  set { n with prices, priceCalls := n.priceCalls + 1 }
  return answer

/-- The newest block. What the script does not tell of it follows the chain. -/
def latestBlock (now : Nat) : StateM Scripted (Except Node.Error Node.Block) := do
  let n ← get
  let (answer, blocks) := nextAnswer (.ok {}) n.blocks
  set { n with blocks, blockCalls := n.blockCalls + 1 }
  return answer.map fun plan =>
    let number := plan.number.getD (n.chain.height now)
    { number
      id := plan.id.getD (Chain.blockId number)
      timestamp := plan.timestamp.getD (n.chain.block now).timestamp }

/-- The method of a transaction, told by the start of its call data. -/
def methodOf (n : Scripted) (tx : SignedTransaction) : String :=
  let start := (tx.raw.contracts.head?.map fun c => c.trigger.data.toList.take 8).getD []
  (n.methods.keys.find? fun name => (Text.hex (Abi.selector name)).toList == start).getD ""

def broadcast (now : Nat) (tx : SignedTransaction) :
    StateM Scripted (Except Node.Error Node.Verdict) := do
  let n ← get
  let name := n.methodOf tx
  let (answer, verdicts) := nextAnswer (.ok none) (n.method name).script.verdicts
  let attempt := (n.method name).accepted
  let n := n.note now name (.broadcast tx) fun s =>
    { s with script := { s.script with verdicts } }
  match answer with
  | .error e =>
    set n
    return .error e
  | .ok (some refusal) =>
    set n
    return .ok refusal
  | .ok none =>
    let s := n.method name
    set { n with
      methods := n.methods.insert name { s with accepted := attempt + 1 }
      accepted := n.accepted.insert tx.id ⟨name, attempt, n.chain.height now⟩ }
    return .ok (.success tx.id)

def nextReceipt (view : Node.View) (attempt : Nat) (receipts : List ReceiptScript) :
    Except Node.Error (Option ReceiptPlan) × List ReceiptScript :=
  let script := receipts[attempt]?.getD {}
  let standard := Except.ok (some { code := some "SUCCESS" })
  match view with
  | .tip =>
    let (answer, tip) := nextAnswer standard script.tip
    (answer, receipts.set attempt { script with tip })
  | .solid =>
    let (answer, solid) := nextAnswer standard script.solid
    (answer, receipts.set attempt { script with solid })

def receipt (now : Nat) (hash : String) (view : Node.View) :
    StateM Scripted (Except Node.Error (Option Node.Receipt)) := do
  let n ← get
  match n.accepted.get? hash with
  | none => return .ok none
  | some a =>
    let (answer, receipts) := nextReceipt view a.attempt (n.method a.method).script.receipts
    set (n.note now a.method (.receipt view a.attempt) fun s =>
      { s with script := { s.script with receipts } })
    return answer.map fun plan => plan.map fun p => {
      id := hash
      block := p.block.getD (a.height + 1)
      code := p.code
      result := if p.failed then some "FAILED" else none
      reason := p.reason }

def service (now : Nat) : Node.Service Scripted where
  estimate := estimate now
  dryRun := dryRun now
  prices := energyPrices
  block := latestBlock now
  broadcast := broadcast now
  receipt := receipt now

end Scripted

end TronCourier.Simulation
