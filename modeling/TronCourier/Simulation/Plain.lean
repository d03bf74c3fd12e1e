import TronCourier.Node.Service
import TronCourier.Simulation.Chain
import TronCourier.Store.Table

/-! A node that accepts every transaction and puts it into the next block, unless
it is told otherwise. -/

namespace TronCourier.Simulation

inductive ReceiptAnswer
  | missing
  | success (block : Int)
  | failed (code : String) (block : Int)
deriving DecidableEq, Repr

def ReceiptAnswer.receipt? (hash : String) : ReceiptAnswer → Option Node.Receipt
  | missing => none
  | success block => some { id := hash, block, code := some "SUCCESS" }
  | failed code block => some { id := hash, block, code := some code, result := some "FAILED" }

structure Plain where
  chain : Chain := {}
  canEstimate : Bool := true
  energy : Int := 14000
  dryRun : Node.DryRun := { energyUsed := 14000, energyPenalty := 0 }
  prices : String := "0:100,1606537680000:420"
  /-- Answers to the next transactions. -/
  verdicts : List Node.Verdict := []
  /-- The accepted transactions, each with the height of the chain. -/
  accepted : List (SignedTransaction × Int) := []
  /-- The latest place of a transaction among the accepted ones. -/
  places : Table String Nat := .empty
  /-- Receipts in the newest and in the solid blocks, by the transaction's place. -/
  receipts : Table Nat (List ReceiptAnswer × List ReceiptAnswer) := .empty
  estimateCalls : Nat := 0
  dryRunCalls : Nat := 0
  priceCalls : Nat := 0
  attempts : Nat := 0

namespace Plain

def estimate : StateM Plain (Except Node.Error Int) := do
  let n ← get
  set { n with estimateCalls := n.estimateCalls + 1 }
  return if n.canEstimate then .ok n.energy else .error .estimateUnsupported

def simulate : StateM Plain (Except Node.Error Node.DryRun) := do
  let n ← get
  set { n with dryRunCalls := n.dryRunCalls + 1 }
  return .ok n.dryRun

def energyPrices : StateM Plain (Except Node.Error String) := do
  let n ← get
  set { n with priceCalls := n.priceCalls + 1 }
  return .ok n.prices

def broadcast (now : Nat) (tx : SignedTransaction) :
    StateM Plain (Except Node.Error Node.Verdict) := do
  let n ← get
  let verdict := n.verdicts.head?.getD (.success tx.id)
  let n := { n with attempts := n.attempts + 1, verdicts := n.verdicts.drop 1 }
  if verdict.accepted then
    set { n with
      places := n.places.insert tx.id n.accepted.length
      accepted := n.accepted ++ [(tx, n.chain.height now)] }
  else set n
  return .ok verdict

def receipt (hash : String) (view : Node.View) :
    StateM Plain (Except Node.Error (Option Node.Receipt)) := do
  let n ← get
  match n.places.get? hash with
  | none => return .ok none
  | some place =>
    let height := (n.accepted[place]?.map Prod.snd).getD 0
    let standard := ReceiptAnswer.success (height + 1)
    match n.receipts.get? place with
    | none => return .ok (standard.receipt? hash)
    | some (tip, solid) =>
      let (answer, scripts) := match view with
        | .tip => let (a, tip) := nextAnswer standard tip; (a, (tip, solid))
        | .solid => let (a, solid) := nextAnswer standard solid; (a, (tip, solid))
      set { n with receipts := n.receipts.insert place scripts }
      return .ok (answer.receipt? hash)

def service (now : Nat) : Node.Service Plain where
  estimate _ := estimate
  dryRun _ := simulate
  prices := energyPrices
  block := fun n => (.ok (n.chain.block now), n)
  broadcast := broadcast now
  receipt := receipt

end Plain

end TronCourier.Simulation
