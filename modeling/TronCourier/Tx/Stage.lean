/-! The stages of a transaction, the moves between them, and the coarser status
that callers see. -/

namespace TronCourier

inductive Stage
  | pending
  | broadcasted
  | confirmed
  | finalized
  | errored
  | fatallyErrored
deriving DecidableEq, Repr

namespace Stage

def all : List Stage :=
  [pending, broadcasted, confirmed, finalized, errored, fatallyErrored]

def name : Stage → String
  | pending => "Pending"
  | broadcasted => "Broadcasted"
  | confirmed => "Confirmed"
  | finalized => "Finalized"
  | errored => "Errored"
  | fatallyErrored => "FatallyErrored"

def ofName? (s : String) : Option Stage :=
  all.find? fun g => g.name == s

/-- A failed attempt is sent again from `errored`; a block that is gone leads
back from `confirmed`. -/
def canMoveTo : Stage → Stage → Bool
  | pending, broadcasted | pending, errored | pending, fatallyErrored => true
  | broadcasted, confirmed | broadcasted, errored => true
  | confirmed, finalized | confirmed, fatallyErrored | confirmed, broadcasted => true
  | errored, fatallyErrored | errored, broadcasted => true
  | _, _ => false

def isTerminal : Stage → Bool
  | finalized | fatallyErrored => true
  | _ => false

theorem not_canMoveTo_of_isTerminal {g : Stage} (h : g.isTerminal = true) (target : Stage) :
    g.canMoveTo target = false := by
  cases g <;> cases target <;> first | rfl | cases h

end Stage

inductive Status
  | unknown
  | pending
  | unconfirmed
  | finalized
  | fatal
deriving DecidableEq, Repr

namespace Status

def name : Status → String
  | unknown => "Unknown"
  | pending => "Pending"
  | unconfirmed => "Unconfirmed"
  | finalized => "Finalized"
  | fatal => "Fatal"

def ofStage : Stage → Status
  | .pending | .errored => pending
  | .broadcasted | .confirmed => unconfirmed
  | .finalized => finalized
  | .fatallyErrored => fatal

end Status

end TronCourier
