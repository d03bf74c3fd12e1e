import TronCourier.Node.Answer
import TronCourier.Settings.Basic

/-! What a receipt says about the attempt that produced it. -/

namespace TronCourier

inductive Outcome
  | success
  | outOfEnergy
  | outOfTime
  /-- Another attempt would fail in the same way. -/
  | fatal (code : String)
  /-- Failed for a reason that the codes do not tell. -/
  | unknown (code : String)
deriving DecidableEq, Repr

namespace Outcome

def category : Outcome → String
  | success => "success"
  | outOfEnergy => "resource"
  | outOfTime | unknown _ => "transient"
  | fatal _ => "fatal"

def outOfEnergyCode : String := "OUT_OF_ENERGY"

def outOfTimeCode : String := "OUT_OF_TIME"

/-- The code that stands for a receipt without one. -/
def noCode : String := "DEFAULT"

/-- Both lack of energy and lack of time come before the lists of codes, and a
fatal code before a successful one. -/
def ofReceipt (codes : ResultCodes) (r : Node.Receipt) : Outcome :=
  let code := r.code.getD noCode
  if code = outOfEnergyCode then outOfEnergy
  else if code = outOfTimeCode then outOfTime
  else if codes.isFatal code then fatal code
  else if codes.isSuccess code && !r.failed then success
  else unknown code

def code? : Outcome → Option String
  | fatal code | unknown code => some code
  | _ => none

end Outcome

end TronCourier
