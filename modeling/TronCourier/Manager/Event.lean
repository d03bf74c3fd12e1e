import TronCourier.Tx.Request

/-! The history of transactions, one event after another. -/

namespace TronCourier

inductive Event
  | enqueued (tx : Tx)
  | moved (id : String) (source target : Stage)
  | broadcasted (tx : Tx) (hash : String) (feeLimit : Int)
  | retrying (tx : Tx) (reason : String) (bumped : Bool)
  | failed (id reason : String)
  /-- The block that held a transaction is gone. -/
  | displaced (id hash : String) (block : Int)
deriving Repr

namespace Event

def id : Event → String
  | enqueued tx | broadcasted tx _ _ | retrying tx _ _ => tx.id
  | moved id _ _ | failed id _ | displaced id _ _ => id

def text : Event → String
  | enqueued _ => "Transaction enqueued"
  | moved _ _ _ => "State transition"
  | broadcasted _ _ _ => "Transaction broadcasted"
  | retrying _ _ _ => "Retrying transaction"
  | failed _ _ => "Transaction fatally errored"
  | displaced _ _ _ => "Confirmed transaction no longer observed at its block, re-polling"

/-- What is told beside the text. -/
def fields : Event → List (String × Json)
  | enqueued tx => [("from", tx.sender.toJson), ("contract", tx.contract.toJson),
      ("method", .str tx.method)]
  | moved _ source target => [("from", .str source.name), ("to", .str target.name)]
  | broadcasted tx hash feeLimit => [("hash", .str hash), ("attempt", .int tx.attempt),
      ("energy_bumps", .int tx.energyBumps), ("fee_limit", .int feeLimit)]
  | retrying tx reason bumped => [("attempt", .int tx.attempt),
      ("energy_bumps", .int tx.energyBumps), ("out_of_time_errors", .int tx.outOfTime),
      ("bump_energy", .bool bumped), ("reason", .str reason)]
  | failed _ reason => [("reason", .str reason)]
  | displaced _ hash block => [("hash", .str hash), ("confirmed_block", .int block)]

end Event

end TronCourier
