import TronCourier.Manager.State
import TronCourier.Tx.Outcome

/-! Watching over transactions that were sent. In a pass over all stores, those
that are confirmed are looked for in solid blocks first; then the receipts of the
others are asked for. A failed attempt is repeated unless the limits are reached
or it would fail again. -/

namespace TronCourier

def Tx.nextAttempt (tx : Tx) (kind : RetryKind) : Tx :=
  { tx with
    attempt := tx.attempt + 1
    energyBumps := if kind = .moreEnergy then tx.energyBumps + 1 else tx.energyBumps
    outOfTime := if kind = .moreTime then tx.outOfTime + 1 else tx.outOfTime }

namespace Manager

def beginPass (m : Manager) (accounts : List Address) : Manager :=
  { m with poller := .surveying accounts }

def endPass (m : Manager) : Manager :=
  { m.count fun c => { c with unconfirmed := m.accounts.awaitingCount } with poller := .resting }

def afterSettling (m : Manager) (rest : List Settling) (pass : Pass) : Manager :=
  { m with poller := .afterSettling pass rest }

def afterAwaiting (m : Manager) (rest : List Awaiting) (pass : Pass) : Manager :=
  { m with poller := .afterAwaiting pass rest }

def finalize (m : Manager) (now : Nat) (a : Address) (id : String) : Manager :=
  match (m.store a).markFinalized id now with
  | .ok s => (m.move a id s).count fun c => { c with finalized := c.finalized + 1 }
  | .error _ => m

def displace (m : Manager) (a : Address) (e : Settling) : Manager :=
  let m := m.record (.displaced e.id e.hash e.block)
  match (m.store a).markReorganized e.id with
  | .ok s => (m.move a e.id s).count fun c => { c with reorgs := c.reorgs + 1 }
  | .error _ => m

def confirm (m : Manager) (a : Address) (id : String) (block : Int) : Manager :=
  match (m.store a).markConfirmed id block with
  | .ok s => (m.move a id s).count fun c => { c with confirmed := c.confirmed + 1 }
  | .error _ => m

def failAttempt (m : Manager) (entry : Awaiting) (rest : List Awaiting) (pass : Pass)
    (reason : String) (next : Option RetryKind) : Manager :=
  match (m.store pass.account).markErrored entry.id with
  | .error _ => m.afterAwaiting rest pass
  | .ok (s, tx) =>
    { m.move pass.account entry.id s with poller := .failed tx reason next rest pass }

/-- The limit that keeps a failed transaction from another attempt. -/
def ceiling? (m : Manager) (tx : Tx) (kind : RetryKind) : Option String :=
  if m.settings.maxAttempts ≤ tx.attempt then some ": attempt ceiling reached"
  else if kind = .moreTime ∧ m.settings.maxOutOfTime ≤ tx.outOfTime then
    some ": out-of-time ceiling reached"
  else none

def retry (m : Manager) (tx : Tx) (reason : String) (kind : RetryKind) (rest : List Awaiting)
    (pass : Pass) : Manager :=
  let tx := tx.nextAttempt kind
  let m := if kind = .moreEnergy then
    m.count fun c => { c with energyBumps := c.energyBumps + 1 } else m
  match (m.store pass.account).recordCounters tx with
  | .error _ => m.afterAwaiting rest pass
  | .ok s =>
    let m := (m.setStore pass.account s).count fun c => { c with retries := c.retries + 1 }
    { m.record (.retrying tx reason (kind = .moreEnergy)) with poller := .requeuing tx rest pass }

/-- Makes the next attempt of a failed transaction, or ends it. -/
def afterFailure (m : Manager) (now : Nat) (tx : Tx) (reason : String) (next : Option RetryKind)
    (rest : List Awaiting) (pass : Pass) : Manager :=
  match next with
  | none => (m.fail now pass.account tx.id reason).afterAwaiting rest pass
  | some kind =>
    match m.ceiling? tx kind with
    | some ceiling => (m.fail now pass.account tx.id (reason ++ ceiling)).afterAwaiting rest pass
    | none => m.retry tx reason kind rest pass

/-- Puts a transaction into the queue again, or waits for a place in it. -/
def requeue (m : Manager) (tx : Tx) (rest : List Awaiting) (pass : Pass) : Manager :=
  if !m.queueOpen then { m with poller := .refused tx rest pass }
  else if m.hasRoom then { m with queue := m.queue ++ [tx] }.afterAwaiting rest pass
  else { m with poller := .blocked tx rest pass }

def expiredReason : String := "expired without receipt"

def withoutReceipt (m : Manager) (ledgerTime : Int) (entry : Awaiting) (rest : List Awaiting)
    (pass : Pass) : Manager :=
  if entry.expiration < ledgerTime then
    m.failAttempt entry rest pass expiredReason (some .plain)
  else m.afterAwaiting rest pass

def withReceipt (m : Manager) (r : Node.Receipt) (entry : Awaiting) (rest : List Awaiting)
    (pass : Pass) : Manager :=
  match Outcome.ofReceipt m.settings.resultCodes r with
  | .success => (m.confirm pass.account entry.id r.block).afterAwaiting rest pass
  | .outOfEnergy => m.failAttempt entry rest pass Outcome.outOfEnergyCode (some .moreEnergy)
  | .outOfTime => m.failAttempt entry rest pass Outcome.outOfTimeCode (some .moreTime)
  | .fatal code =>
    let reason := match r.reason with
      | some reason => code ++ ": " ++ reason
      | none => code
    m.failAttempt entry rest pass reason none
  | .unknown code => m.failAttempt entry rest pass code (some .plain)

/-- Goes on with an answer. An error leaves the transaction as it is. -/
def informed (m : Manager) (now : Nat) : (q : Inquiry) → q.Answer → Manager
  | .solid _ rest pass, .error _ => m.afterSettling rest pass
  | .solid entry rest pass, .ok none => { m with poller := .asking (.tip entry rest pass) }
  | .solid entry rest pass, .ok (some r) =>
    if r.block = entry.block then (m.finalize now pass.account entry.id).afterSettling rest pass
    else { m with poller := .asking (.tip entry rest pass) }
  | .tip _ rest pass, .error _ => m.afterSettling rest pass
  | .tip entry rest pass, .ok none => (m.displace pass.account entry).afterSettling rest pass
  | .tip entry rest pass, .ok (some r) =>
    if r.block = entry.block then m.afterSettling rest pass
    else (m.displace pass.account entry).afterSettling rest pass
  | .receipt _ rest pass, .error _ => m.afterAwaiting rest pass
  | .receipt entry rest pass, .ok (some r) => m.withReceipt r entry rest pass
  | .receipt entry rest pass, .ok none =>
    match pass.clock with
    | some t => m.withoutReceipt t entry rest pass
    | none => { m with poller := .asking (.clock entry rest pass) }
  | .clock _ rest pass, .error _ => m.afterAwaiting rest pass
  | .clock entry rest pass, .ok block =>
    m.withoutReceipt block.timestamp entry rest { pass with clock := some block.timestamp }

def usePlace (m : Manager) (tx : Tx) (rest : List Awaiting) (pass : Pass) : Manager :=
  { m with queue := m.queue ++ [tx] }.afterAwaiting rest pass

def withoutPlace (m : Manager) (now : Nat) (tx : Tx) (rest : List Awaiting) (pass : Pass) :
    Manager :=
  (m.fail now pass.account tx.id "broadcast queue closed").afterAwaiting rest pass

end Manager

end TronCourier
