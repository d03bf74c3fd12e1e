import TronCourier.Fee.Estimator
import TronCourier.Manager.Event
import TronCourier.Manager.Phase
import TronCourier.Metrics
import TronCourier.Store.Accounts

/-! The state of a transaction manager: the stores of its senders, the queue of
transactions that are to be sent, and the parts that work on them. -/

namespace TronCourier

inductive Lifecycle
  | idle
  | running
  | closed
deriving DecidableEq, Repr

def Lifecycle.name : Lifecycle → String
  | idle => "Idle"
  | running => "Running"
  | closed => "Closed"

structure Manager where
  settings : Settings
  /-- Whether there is a record of messages that requests are checked against. -/
  checksMessages : Bool := false
  lifecycle : Lifecycle := .idle
  accounts : Accounts := .empty
  metrics : Metrics := {}
  estimator : Fee.Estimator
  /-- Transactions to be sent, the next one first. -/
  queue : List Tx := []
  /-- How many places of the queue requests hold that are on their way in. -/
  promised : Nat := 0
  /-- Whether the end of the queue that transactions are taken from is in use or
  still to be used. -/
  queueOpen : Bool := true
  /-- Whether that end is still to be given to a sender. -/
  outletFree : Bool := true
  sender : Sender := .absent
  poller : Poller := .absent
  reaper : Reaper := .absent
  /-- The parts that closing waits for. -/
  workers : List Worker := []
  /-- The parts that were told to stop. -/
  halting : List Worker := []
  events : List Event := []

namespace Manager

inductive Error
  | invalidRequest (cause : Abi.Error)
  | unknownSigner (address : Address) (cause : KeystoreError)
  | duplicateSubmission (key : String)
  | queueFull (capacity : Nat)
  | closed
  | alreadyStarted
  | statusCheck (reason : String)
  | store (cause : StoreError)
  | settings (cause : SettingsError)
deriving DecidableEq, Repr

namespace Error

def message : Error → String
  | invalidRequest cause => "Invalid request: " ++ cause.message
  | unknownSigner address cause =>
    "Keystore cannot sign for " ++ address.toBase58 ++ ": " ++ cause.message
  | duplicateSubmission key => "Duplicate submission for idempotency key " ++ key
  | queueFull capacity => "Broadcast queue is full (capacity " ++ toString capacity ++ ")"
  | closed => "Transaction manager is closed"
  | alreadyStarted => "Transaction manager already started"
  | statusCheck reason => "Status checker failed: " ++ reason
  | store cause => cause.message
  | settings cause => "Configuration error: " ++ cause.message

def category : Error → String
  | invalidRequest _ | unknownSigner _ _ | duplicateSubmission _ => "validation"
  | queueFull _ | statusCheck _ => "transient"
  | closed | alreadyStarted | store _ => "state"
  | settings _ => "config"

end Error

def ofSettings (settings : Settings) (checksMessages : Bool) : Except Error Manager :=
  match settings.validate with
  | .error e => .error (.settings e)
  | .ok settings => .ok {
      settings, checksMessages, estimator := Fee.Estimator.ofSettings settings }

/-- How many places of the queue are in use. A place that was promised or granted
counts. -/
def queueLength (m : Manager) : Nat :=
  m.queue.length + m.promised + (match m.poller with
    | .granted _ _ _ => 1
    | _ => 0)

def hasRoom (m : Manager) : Bool :=
  m.queueLength < m.settings.queueCapacity

def record (m : Manager) (e : Event) : Manager :=
  { m with events := m.events ++ [e] }

def count (m : Manager) (change : Metrics → Metrics) : Manager :=
  { m with metrics := change m.metrics }

def store (m : Manager) (a : Address) : Store :=
  m.accounts.store a

def setStore (m : Manager) (a : Address) (s : Store) : Manager :=
  { m with accounts := m.accounts.set a s }

/-- Puts a store in which a transaction has moved in place of the old one. -/
def move (m : Manager) (a : Address) (id : String) (s : Store) : Manager :=
  match (m.store a).stage? id, s.stage? id with
  | some source, some target => (m.setStore a s).record (.moved id source target)
  | _, _ => m.setStore a s

def fail (m : Manager) (now : Nat) (a : Address) (id reason : String) : Manager :=
  match (m.store a).markFatal id now with
  | .ok s =>
    ((m.move a id s).count fun c => { c with fatal := c.fatal + 1 }).record (.failed id reason)
  | .error _ => m

def status (m : Manager) (id : String) : Status :=
  m.accounts.status id

def stage? (m : Manager) (id : String) : Option Stage :=
  (m.accounts.entry? id).map fun e => e.tx.stage

def tx? (m : Manager) (id : String) : Option Tx :=
  (m.accounts.entry? id).map Entry.tx

end Manager

end TronCourier
