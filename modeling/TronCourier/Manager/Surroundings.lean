import TronCourier.Manager.Broadcast
import TronCourier.Manager.Confirm
import TronCourier.Manager.Submission
import TronCourier.Node.Service

/-! What a manager asks: a node, a keystore and a record of messages. -/

namespace TronCourier

structure Surroundings (σ : Type) extends Node.Service σ where
  /-- Signs a digest, or tells without one whether the account's key is there. -/
  sign : Address → Option Bytes → StateM σ (Except KeystoreError Bytes)
  retries : String → StateM σ (Except String Nat)

variable {σ : Type}

def Attempt.ask (w : Surroundings σ) : (a : Attempt) → StateM σ a.Answer
  | .beginning _ | .failing _ _ => pure ()
  | .estimating _ call => w.estimate call
  | .simulating _ call => w.dryRun call
  | .pricing _ _ => w.prices
  | .referring _ _ => w.block
  | .signing tx _ unsigned => w.sign tx.sender (some unsigned.id)
  | .sending p => w.broadcast p.signed

def Inquiry.ask (w : Surroundings σ) : (q : Inquiry) → StateM σ q.Answer
  | .solid e _ _ => w.receipt e.hash .solid
  | .tip e _ _ => w.receipt e.hash .tip
  | .receipt e _ _ => w.receipt e.hash .tip
  | .clock _ _ _ => w.block

def Submission.ask (w : Surroundings σ) : (s : Submission) → StateM σ s.Answer
  | .probing r => w.sign r.sender none
  | .checking _ message => w.retries message
  | .reserving _ | .admitting _ | .delivering _ => pure ()

namespace Manager

/-- Asks what a request waits for, at most `steps` times. -/
def settle (w : Surroundings σ) (fresh : String) :
    Nat → Manager → Progress → StateM σ (Manager × Progress)
  | steps + 1, m, .waiting s => do
    let (m, p) := m.proceed fresh s (← s.ask w)
    settle w fresh steps m p
  | _, m, p => return (m, p)

/-- Takes in a request without a pause. There are two questions at most, and three
steps without one. -/
def enqueue (w : Surroundings σ) (m : Manager) (r : Request) (fresh : String) :
    StateM σ (Manager × Progress) :=
  match m.submit r with
  | .error e => return (m, .rejected e)
  | .ok s => settle w fresh 5 m (.waiting s)

end Manager

end TronCourier
