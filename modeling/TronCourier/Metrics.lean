import TronCourier.Number.Decimal

/-! Counts of what a manager has done, and their text for collectors. -/

namespace TronCourier

structure Metrics where
  enqueued : Nat := 0
  broadcast : Nat := 0
  broadcastRetries : Nat := 0
  confirmed : Nat := 0
  finalized : Nat := 0
  retries : Nat := 0
  energyBumps : Nat := 0
  reorgs : Nat := 0
  fatal : Nat := 0
  reaped : Nat := 0
  queueDepth : Int := 0
  unconfirmed : Int := 0
deriving DecidableEq, Repr

namespace Metrics

/-- A count that only grows, or a level that goes up and down. -/
inductive Kind
  | counter
  | gauge
deriving DecidableEq, Repr

def Kind.name : Kind → String
  | counter => "counter"
  | gauge => "gauge"

structure Family where
  key : String
  help : String
  kind : Kind
  value : Metrics → Int

/-- The name that collectors know. The name of a counter ends in `_total`. -/
def Family.name (f : Family) : String :=
  match f.kind with
  | .counter => "txm_" ++ f.key ++ "_total"
  | .gauge => "txm_" ++ f.key

/-- In the order of their names. -/
def families : List Family :=
  [⟨"broadcast_retries", "Broadcast retries after busy/unsolidified node responses",
      .counter, fun m => m.broadcastRetries⟩,
    ⟨"broadcast", "Successful broadcasts, including rebroadcasts", .counter,
      fun m => m.broadcast⟩,
    ⟨"confirmed", "Transactions observed in a block", .counter, fun m => m.confirmed⟩,
    ⟨"energy_bumps", "Resubmissions with a bumped fee limit", .counter,
      fun m => m.energyBumps⟩,
    ⟨"enqueued", "Transactions accepted by enqueue", .counter, fun m => m.enqueued⟩,
    ⟨"fatal", "Transactions marked fatally errored", .counter, fun m => m.fatal⟩,
    ⟨"finalized", "Transactions observed in a solidified block", .counter,
      fun m => m.finalized⟩,
    ⟨"queue_depth", "Transactions queued but not yet broadcast", .gauge,
      fun m => m.queueDepth⟩,
    ⟨"reaped", "Finished transactions evicted after retention", .counter,
      fun m => m.reaped⟩,
    ⟨"reorgs", "Confirmed transactions pushed back to broadcasted", .counter,
      fun m => m.reorgs⟩,
    ⟨"retries", "Transactions resubmitted by the confirm loop", .counter,
      fun m => m.retries⟩,
    ⟨"unconfirmed", "Broadcasted transactions awaiting confirmation", .gauge,
      fun m => m.unconfirmed⟩]

/-- Collectors get every value as a binary64 number. -/
def Family.text (f : Family) (m : Metrics) : String :=
  "# HELP " ++ f.name ++ " " ++ f.help ++ "\n# TYPE " ++ f.name ++ " " ++ f.kind.name ++ "\n" ++
    f.name ++ " " ++ (Binary64.ofInt (f.value m)).display ++ "\n"

def text (m : Metrics) : String :=
  String.join (families.map fun f => f.text m)

end Metrics

end TronCourier
