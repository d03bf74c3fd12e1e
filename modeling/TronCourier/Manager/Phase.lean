import TronCourier.Keystore
import TronCourier.Node.Answer
import TronCourier.Store.Store
import TronCourier.Transaction.Build

/-! How far the parts of a manager have come. A part that has asked its
surroundings a question waits in a phase that tells the question; the type of the
answer goes with the phase. A part that is about to touch something which it shares
with others is in a phase of its own, so that no step touches such things twice. -/

namespace TronCourier

/-- A signed transaction on its way to the node. -/
structure Parcel where
  tx : Tx
  feeLimit : Int
  signed : SignedTransaction
  /-- When it was sent for the first time. -/
  since : Nat
  /-- How often it was sent again. -/
  retries : Nat := 0

/-- An attempt to send a transaction, by the question that is open. Nothing is
asked while it begins, nor before a failure goes on record. -/
inductive Attempt
  | beginning (tx : Tx)
  | estimating (tx : Tx) (call : Node.Simulated)
  | simulating (tx : Tx) (call : Node.Simulated)
  | pricing (tx : Tx) (energy : Int)
  | referring (tx : Tx) (feeLimit : Int)
  | signing (tx : Tx) (feeLimit : Int) (unsigned : UnsignedTransaction)
  | sending (parcel : Parcel)
  | failing (tx : Tx) (reason : String)

namespace Attempt

def Answer : Attempt → Type
  | beginning _ | failing _ _ => Unit
  | estimating _ _ => Except Node.Error Int
  | simulating _ _ => Except Node.Error Node.DryRun
  | pricing _ _ => Except Node.Error String
  | referring _ _ => Except Node.Error Node.Block
  | signing _ _ _ => Except KeystoreError Bytes
  | sending _ => Except Node.Error Node.Verdict

def tx : Attempt → Tx
  | beginning tx | estimating tx _ | simulating tx _ | pricing tx _ | referring tx _ => tx
  | signing tx _ _ | failing tx _ => tx
  | sending p => p.tx

end Attempt

inductive Sender
  | absent
  | idle
  | busy (attempt : Attempt)
  /-- Waits before the parcel goes to a busy node again. -/
  | asleep (parcel : Parcel) (wake : Nat)
  | stopped

/-- A pass over the senders' stores: the sender whose store is looked at, the time
of the ledger if it was asked for, and the senders that come later. -/
structure Pass where
  account : Address
  clock : Option Int := none
  later : List Address

/-- A question about a transaction in a pass, with the other transactions of the
same store that are still to be looked at. -/
inductive Inquiry
  /-- Whether a solid block has a confirmed transaction. -/
  | solid (entry : Settling) (rest : List Settling) (pass : Pass)
  /-- Whether the newest blocks still have a confirmed transaction. -/
  | tip (entry : Settling) (rest : List Settling) (pass : Pass)
  /-- How a sent transaction ended. -/
  | receipt (entry : Awaiting) (rest : List Awaiting) (pass : Pass)
  /-- What time it is for a sent transaction without a receipt. -/
  | clock (entry : Awaiting) (rest : List Awaiting) (pass : Pass)

def Inquiry.Answer : Inquiry → Type
  | solid _ _ _ | tip _ _ _ | receipt _ _ _ => Except Node.Error (Option Node.Receipt)
  | clock _ _ _ => Except Node.Error Node.Block

/-- What changes from a failed attempt to the next one. -/
inductive RetryKind
  | plain
  | moreEnergy
  | moreTime
deriving DecidableEq, Repr

/-- The part that watches over transactions after they were sent. -/
inductive Poller
  | absent
  | resting
  /-- Is about to look for confirmed transactions in the next store. -/
  | surveying (later : List Address)
  /-- Is about to look for transactions that wait for a receipt. -/
  | collecting (pass : Pass)
  | asking (inquiry : Inquiry)
  /-- Has put a failed attempt on record. There is no next one without a kind. -/
  | failed (tx : Tx) (reason : String) (next : Option RetryKind) (rest : List Awaiting)
      (pass : Pass)
  /-- Is about to ask for a place in the queue. -/
  | requeuing (tx : Tx) (rest : List Awaiting) (pass : Pass)
  | blocked (tx : Tx) (rest : List Awaiting) (pass : Pass)
  | granted (tx : Tx) (rest : List Awaiting) (pass : Pass)
  /-- There will be no place in the queue. -/
  | refused (tx : Tx) (rest : List Awaiting) (pass : Pass)
  | stopped

namespace Poller

/-- Goes on with the next of some confirmed transactions, or with those of the same
store that wait for a receipt. -/
def afterSettling (pass : Pass) : List Settling → Poller
  | e :: rest => asking (.solid e rest pass)
  | [] => collecting pass

/-- Goes on with the next of some transactions that wait for a receipt, or with the
next store. -/
def afterAwaiting (pass : Pass) : List Awaiting → Poller
  | e :: rest => asking (.receipt e rest pass)
  | [] => surveying pass.later

/-- A poller that waits for a place in the queue gets the one that came free. -/
def grant : Poller → Poller
  | blocked tx rest pass => granted tx rest pass
  | p => p

/-- A poller that waits for a place in the queue, or has not used the one that it got, learns
that there will be none. -/
def refuse : Poller → Poller
  | blocked tx rest pass | granted tx rest pass => refused tx rest pass
  | p => p

end Poller

inductive Reaper
  | absent
  | resting
  /-- Has begun at a time, and evicted so many from the stores that it has seen. -/
  | sweeping (begun : Nat) (later : List Address) (evicted : Nat)
  | stopped
deriving DecidableEq, Repr

inductive Worker
  | sender
  | poller
  | reaper
deriving DecidableEq, Repr

/-- A request on its way in, by the question that is open. -/
inductive Submission
  /-- Whether the sender's key is there. -/
  | probing (request : Request)
  /-- How often the request's message was retried. -/
  | checking (request : Request) (message : String)
  /-- Nothing; a place in the queue is about to be taken. -/
  | reserving (tx : Tx)
  /-- Nothing; there is a place, and the store is about to take the transaction in. -/
  | admitting (tx : Tx)
  /-- Nothing; the store has the transaction, and the place is about to be used. -/
  | delivering (tx : Tx)

def Submission.Answer : Submission → Type
  | probing _ => Except KeystoreError Bytes
  | checking _ _ => Except String Nat
  | reserving _ | admitting _ | delivering _ => Unit

end TronCourier
