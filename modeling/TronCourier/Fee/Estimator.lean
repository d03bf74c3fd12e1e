import TronCourier.Abi.Encode
import TronCourier.Fee.Price
import TronCourier.Node.Service
import TronCourier.Settings.Basic
import TronCourier.Tx.Request

/-! The fee limit of a call: its energy times the price of energy. A node that
cannot estimate is never asked for an estimate again, and dry runs take the place
of estimates. The price is kept for a while. -/

namespace TronCourier.Fee

inductive EstimateError
  | node (cause : Node.Error)
  | encoding (cause : Abi.Error)
  | reverted (reason : String)
deriving DecidableEq, Repr

def EstimateError.message : EstimateError → String
  | node cause => "Ledger error: " ++ cause.message
  | encoding cause => "Call data encoding failed: " ++ cause.message
  | reverted reason => "Dry-run reverted: " ++ reason

structure CachedPrice where
  price : Int
  fetchedAt : Nat
deriving DecidableEq, Repr

structure Estimator where
  refreshMs : Nat
  defaultPrice : Int
  /-- Whether the node is still asked for estimates. -/
  estimates : Bool := true
  cached : Option CachedPrice := none
deriving DecidableEq, Repr

structure FeeLimit where
  energy : Int
  unitPrice : Int
  amount : Int
deriving DecidableEq, Repr

def limitOf (energy unitPrice : Int) : FeeLimit :=
  ⟨energy, unitPrice, mulClamped energy unitPrice⟩

def simulated (tx : Tx) : Except Abi.Error Node.Simulated := do
  let parameter ← Abi.encodeParams tx.params
  return {
    owner := tx.sender
    contract := tx.contract
    method := tx.method
    parameter := Text.hex parameter }

namespace Estimator

def ofSettings (s : Settings) : Estimator where
  refreshMs := s.priceRefreshSecs * 1000
  defaultPrice := s.defaultPrice

/-- What an estimate says. It says nothing if the node cannot estimate. -/
def afterEstimate (e : Estimator) :
    Except Node.Error Int → Estimator × Option (Except EstimateError Int)
  | .ok energy => (e, some (.ok energy))
  | .error .estimateUnsupported => ({ e with estimates := false }, none)
  | .error cause => (e, some (.error (.node cause)))

def energyOfDryRun : Except Node.Error Node.DryRun → Except EstimateError Int
  | .error cause => .error (.node cause)
  | .ok run =>
    match run.revert with
    | some reason => .error (.reverted reason)
    | none => .ok (addClamped run.energyUsed run.energyPenalty)

def freshPrice? (e : Estimator) (now : Nat) : Option Int :=
  match e.cached with
  | some c => if now - c.fetchedAt < e.refreshMs then some c.price else none
  | none => none

/-- The price in a feed. A price of zero and a malformed feed give the default. -/
def priceOfFeed (e : Estimator) (feed : String) : Int :=
  match readPrice feed with
  | some 0 | none => e.defaultPrice
  | some price => price

/-- The price after the node was asked for its feed. Without a feed the price
that is kept serves on, whatever its age. -/
def afterPrices (e : Estimator) (now : Nat) : Except Node.Error String → Estimator × Int
  | .ok feed =>
    let price := e.priceOfFeed feed
    ({ e with cached := some ⟨price, now⟩ }, price)
  | .error _ => (e, (e.cached.map CachedPrice.price).getD e.defaultPrice)

variable {σ : Type}

def energy (node : Node.Service σ) (e : Estimator) (tx : Tx) :
    StateM σ (Estimator × Except EstimateError Int) :=
  match simulated tx with
  | .error cause => return (e, .error (.encoding cause))
  | .ok call => do
    let (e, outcome) ←
      if e.estimates then e.afterEstimate <$> node.estimate call else pure (e, none)
    match outcome with
    | some r => return (e, r)
    | none => return (e, energyOfDryRun (← node.dryRun call))

/-- The price of energy, which a node is asked for if the one kept is too old. What
it answers is as old as the answer, not as the question. -/
def price (node : Node.Service σ) (clock : σ → Nat) (e : Estimator) :
    StateM σ (Estimator × Int) := do
  match e.freshPrice? (clock (← get)) with
  | some p => return (e, p)
  | none =>
    let answer ← node.prices
    return e.afterPrices (clock (← get)) answer

def feeLimit (node : Node.Service σ) (clock : σ → Nat) (e : Estimator) (tx : Tx) :
    StateM σ (Estimator × Except EstimateError FeeLimit) := do
  match ← e.energy node tx with
  | (e, .error cause) => return (e, .error cause)
  | (e, .ok energy) =>
    let (e, unitPrice) ← e.price node clock
    return (e, .ok (limitOf energy unitPrice))

end Estimator

end TronCourier.Fee
