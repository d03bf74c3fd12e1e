import TronCourier.Manager.State

/-! Sending transactions. For each one taken from the queue the energy, the price
and a recent block are asked for; then it is signed and sent, and sent again while
the node is busy. Any other failure is the end of the transaction. -/

namespace TronCourier.Manager

def busy (m : Manager) (a : Attempt) : Manager :=
  { m with sender := .busy a }

/-- Leaves a transaction that cannot be sent to be ended. -/
def abandon (m : Manager) (tx : Tx) (reason : String) : Manager :=
  m.busy (.failing tx reason)

def energyFailure (e : Fee.EstimateError) : String :=
  "energy estimation failed: " ++ e.message

def attempt (m : Manager) (tx : Tx) : Manager :=
  let m := { m with accounts := m.accounts.ensure tx.sender }
  match Fee.simulated tx with
  | .error e => m.abandon tx (energyFailure (.encoding e))
  | .ok call => m.busy (if m.estimator.estimates then .estimating tx call else .simulating tx call)

def take? (m : Manager) : Option Manager :=
  match m.sender, m.queue with
  | .idle, tx :: rest =>
    let m := { m with queue := rest, poller := m.poller.grant }
    some ((m.count fun c => { c with queueDepth := m.queueLength }).busy (.beginning tx))
  | _, _ => none

def limited (m : Manager) (tx : Tx) (energy unitPrice : Int) : Manager :=
  m.busy (.referring tx
    (Fee.padded (Fee.limitOf energy unitPrice).amount m.settings.energyMultiplier tx.energyBumps))

def priced (m : Manager) (now : Nat) (tx : Tx) (energy : Int) : Manager :=
  match m.estimator.freshPrice? now with
  | some unitPrice => m.limited tx energy unitPrice
  | none => m.busy (.pricing tx energy)

/-- The transaction to be signed, on a recent block, or the reason why there is
none. -/
def unsigned (m : Manager) (tx : Tx) (feeLimit : Int) (block : Node.Block) :
    Except String UnsignedTransaction := do
  let data ← (Abi.encodeCall tx.method tx.params).mapError Abi.Error.message
  let ref ← (BlockRef.ofBlock block.number block.id).mapError fun e =>
    (BuildError.refBlock e).message
  let call : ContractCall := { owner := tx.sender, contract := tx.contract, callValue := 0, data }
  let expiration := addClamped block.timestamp m.settings.lifetime
  (UnsignedTransaction.ofCall call ref feeLimit block.timestamp (some expiration)).mapError
    fun e => "build failed: " ++ e.message

def sent (m : Manager) (p : Parcel) : Manager :=
  match (m.store p.tx.sender).markBroadcasted p.signed.id p.signed.raw.expiration p.tx with
  | .error e => m.abandon p.tx e.message
  | .ok s =>
    let m := (m.move p.tx.sender p.tx.id s).count fun c => { c with broadcast := c.broadcast + 1 }
    { m.record (.broadcasted p.tx p.signed.id p.feeLimit) with sender := .idle }

/-- Whether another wait would go beyond the time for retries. -/
def outOfPatience (m : Manager) (now : Nat) (p : Parcel) : Bool :=
  m.settings.maxRetrySecs * 1000 < now - p.since + m.settings.retryDelayMs

def judge (m : Manager) (now : Nat) (p : Parcel) (v : Node.Verdict) : Manager :=
  if v.accepted then m.sent p
  else if !v.isBusy then
    m.abandon p.tx
      ("broadcast failed: " ++ v.code.getD "UNKNOWN" ++ ": " ++ v.reason.getD "")
  else if m.outOfPatience now p then
    m.abandon p.tx ("broadcast failed: node busy after " ++ toString p.retries ++
      " retries (" ++ v.code.getD "unknown" ++ ")")
  else
    let m := m.count fun c => { c with broadcastRetries := c.broadcastRetries + 1 }
    { m with sender :=
        .asleep { p with retries := p.retries + 1 } (now + m.settings.retryDelayMs) }

def answered (m : Manager) (now : Nat) : (a : Attempt) → a.Answer → Manager
  | .beginning tx, () => m.attempt tx
  | .estimating tx call, answer =>
    let (e, outcome) := m.estimator.afterEstimate answer
    let m := { m with estimator := e }
    match outcome with
    | none => m.busy (.simulating tx call)
    | some (.ok energy) => m.priced now tx energy
    | some (.error cause) => m.abandon tx (energyFailure cause)
  | .simulating tx _, answer =>
    match Fee.Estimator.energyOfDryRun answer with
    | .ok energy => m.priced now tx energy
    | .error cause => m.abandon tx (energyFailure cause)
  | .pricing tx energy, answer =>
    let (e, unitPrice) := m.estimator.afterPrices now answer
    { m with estimator := e }.limited tx energy unitPrice
  | .referring tx _, .error e =>
    m.abandon tx ("reference block unavailable: " ++ e.message)
  | .referring tx feeLimit, .ok block =>
    match m.unsigned tx feeLimit block with
    | .error reason => m.abandon tx reason
    | .ok unsigned => m.busy (.signing tx feeLimit unsigned)
  | .signing tx _ _, .error e => m.abandon tx ("signing failed: " ++ e.message)
  | .signing tx feeLimit unsigned, .ok signature =>
    m.busy (.sending { tx, feeLimit, signed := unsigned.withSignature signature, since := now })
  | .sending p, .error e => m.abandon p.tx ("broadcast failed: " ++ e.message)
  | .sending p, .ok verdict => m.judge now p verdict
  | .failing tx reason, () => { m.fail now tx.sender tx.id reason with sender := .idle }

def wake (m : Manager) (p : Parcel) : Manager :=
  m.busy (.sending p)

end TronCourier.Manager
