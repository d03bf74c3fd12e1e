import TronCourier.Store.Table
import TronCourier.Tx.Request

/-! The transactions of one sender, with an index of the hashes that they were
sent under, of the keys that they hold, of those that wait for a receipt and of
those that are finished. An operation that fails gives no new store. -/

namespace TronCourier

inductive StoreError
  | duplicateId (id : String)
  | duplicateHash (hash : String)
  | notFound (id : String)
  | invalidTransition (id : String) (source target : Stage)
  | duplicateKey (key : String)
deriving DecidableEq, Repr

def StoreError.message : StoreError → String
  | duplicateId id => "Transaction " ++ id ++ " already exists"
  | duplicateHash hash => "Hash " ++ hash ++ " already recorded"
  | notFound id => "Transaction " ++ id ++ " not found"
  | invalidTransition id source target =>
    "Invalid state transition for " ++ id ++ ": " ++ source.name ++ " -> " ++ target.name
  | duplicateKey key => "Idempotency key " ++ key ++ " already in use"

/-- A transaction with what is known of its attempts, the latest one last. -/
structure Entry where
  tx : Tx
  hashes : List String := []
  currentHash : Option String := none
  /-- When the latest attempt expires, by the ledger's clock. -/
  expiration : Int := 0
  confirmedBlock : Option Int := none
deriving Repr

namespace Entry

def ofTx (tx : Tx) : Entry :=
  { tx := { tx with stage := .pending } }

def withStage (e : Entry) (g : Stage) : Entry :=
  { e with tx := { e.tx with stage := g } }

/-- The entry after another attempt. The transaction given, with the counters of
this attempt, takes the place of the stored one, whose key stays. -/
def sentAs (e : Entry) (hash : String) (expiration : Int) (tx : Tx) : Entry where
  tx := { tx with stage := .broadcasted, key := e.tx.key }
  hashes := e.hashes ++ [hash]
  currentHash := some hash
  expiration

def confirmedIn (e : Entry) (block : Int) : Entry :=
  { e.withStage .confirmed with confirmedBlock := some block }

/-- The entry when its block is gone. -/
def displaced (e : Entry) : Entry :=
  { e.withStage .broadcasted with confirmedBlock := none }

/-- The entry with the counters of a transaction, and nothing else of it. -/
def withCounters (e : Entry) (tx : Tx) : Entry :=
  { e with tx := { e.tx with
    attempt := tx.attempt, energyBumps := tx.energyBumps, outOfTime := tx.outOfTime } }

end Entry

structure Store where
  entries : Table String Entry := .empty
  /-- The transaction that was sent under a hash. -/
  hashes : Table String String := .empty
  awaiting : List String := []
  /-- The transaction that holds a key. -/
  keys : Table String String := .empty
  /-- When a transaction came to its end. -/
  finished : Table String Nat := .empty
deriving Repr

/-- A transaction that waits for a receipt. -/
structure Awaiting where
  id : String
  hash : String
  expiration : Int
deriving DecidableEq, Repr

/-- A transaction that waits for its block to become final. -/
structure Settling where
  id : String
  hash : String
  block : Int
deriving DecidableEq, Repr

namespace Entry

def awaiting? (e : Entry) (id : String) : Option Awaiting := do
  return ⟨id, ← e.currentHash, e.expiration⟩

/-- The row of an entry, if it waits for its block to become final. -/
def settling? (e : Entry) : Option Settling :=
  if e.tx.stage = .confirmed then do
    return ⟨e.tx.id, ← e.currentHash, ← e.confirmedBlock⟩
  else none

end Entry

namespace Store

def empty : Store := {}

def entry (s : Store) (id : String) : Except StoreError Entry :=
  match s.entries.get? id with
  | some e => .ok e
  | none => .error (.notFound id)

/-- The entry of a transaction that may move to a stage. -/
def entryFor (s : Store) (id : String) (target : Stage) : Except StoreError Entry := do
  let e ← s.entry id
  if e.tx.stage.canMoveTo target then return e
  else .error (.invalidTransition e.tx.id e.tx.stage target)

def setEntry (s : Store) (id : String) (e : Entry) : Store :=
  { s with entries := s.entries.insert id e }

def await (s : Store) (id : String) : Store :=
  { s with awaiting := if id ∈ s.awaiting then s.awaiting else s.awaiting ++ [id] }

def unawait (s : Store) (id : String) : Store :=
  { s with awaiting := s.awaiting.filter (· ≠ id) }

def addPending (s : Store) (tx : Tx) : Except StoreError Store :=
  if s.entries.contains tx.id then .error (.duplicateId tx.id)
  else match tx.key with
    | none => .ok (s.setEntry tx.id (.ofTx tx))
    | some key =>
      if s.keys.contains key then .error (.duplicateKey key)
      else .ok ({ s with keys := s.keys.insert key tx.id }.setEntry tx.id (.ofTx tx))

def markBroadcasted (s : Store) (hash : String) (expiration : Int) (tx : Tx) :
    Except StoreError Store :=
  if s.hashes.contains hash then .error (.duplicateHash hash)
  else do
    let e ← s.entry tx.id
    if e.tx.stage = .confirmed then .error (.invalidTransition tx.id .confirmed .broadcasted)
    else
      let e ← s.entryFor tx.id .broadcasted
      return ({ s with hashes := s.hashes.insert hash tx.id }.setEntry tx.id
        (e.sentAs hash expiration tx)).await tx.id

def markConfirmed (s : Store) (id : String) (block : Int) : Except StoreError Store := do
  let e ← s.entryFor id .confirmed
  return (s.setEntry id (e.confirmedIn block)).unawait id

def markReorganized (s : Store) (id : String) : Except StoreError Store := do
  let e ← s.entry id
  if e.tx.stage = .confirmed then
    return (s.setEntry id e.displaced).await id
  else .error (.invalidTransition id e.tx.stage .broadcasted)

/-- Records a failed attempt and gives the transaction for another one. -/
def markErrored (s : Store) (id : String) : Except StoreError (Store × Tx) := do
  let e ← s.entryFor id .errored
  let failed := e.withStage .errored
  return ((s.setEntry id failed).unawait id, failed.tx)

/-- Takes over the counters of a transaction, and nothing else. -/
def recordCounters (s : Store) (tx : Tx) : Except StoreError Store := do
  let e ← s.entry tx.id
  return s.setEntry tx.id (e.withCounters tx)

def finish (s : Store) (id : String) (target : Stage) (now : Nat) : Except StoreError Store := do
  let e ← s.entryFor id target
  return { (s.setEntry id (e.withStage target)).unawait id with
    finished := s.finished.insert id now }

def markFinalized (s : Store) (id : String) (now : Nat) : Except StoreError Store :=
  s.finish id .finalized now

def markFatal (s : Store) (id : String) (now : Nat) : Except StoreError Store :=
  s.finish id .fatallyErrored now

def keysWithout (s : Store) (tx : Tx) : Table String String :=
  match tx.key with
  | some key => s.keys.erase key
  | none => s.keys

def evict (s : Store) (id : String) : Store :=
  let s := { s with finished := s.finished.erase id }
  match s.entries.get? id with
  | none => s
  | some e => { s with
      entries := s.entries.erase id
      hashes := s.hashes.eraseAll e.hashes
      keys := s.keysWithout e.tx }

/-- The transactions that came to their end a retention period ago or earlier. -/
def expired (s : Store) (retention now : Nat) : List String :=
  (s.finished.rows.filter fun row => retention ≤ now - row.2).map Prod.fst

def reap (s : Store) (retention now : Nat) : Store × Nat :=
  let ids := s.expired retention now
  (ids.foldl evict s, ids.length)

def stage? (s : Store) (id : String) : Option Stage :=
  (s.entries.get? id).map fun e => e.tx.stage

def tx? (s : Store) (id : String) : Option Tx :=
  (s.entries.get? id).map Entry.tx

def hashesOf (s : Store) (id : String) : List String :=
  ((s.entries.get? id).map Entry.hashes).getD []

def awaitingRows (s : Store) : List Awaiting :=
  s.awaiting.filterMap fun id => (s.entries.get? id).bind fun e => e.awaiting? id

def settlingRows (s : Store) : List Settling :=
  s.entries.rows.filterMap fun row => row.2.settling?

end Store

end TronCourier
