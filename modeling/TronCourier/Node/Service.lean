import TronCourier.Node.Answer

/-! A node as a set of questions. Each is answered out of a state that the answer
may change. -/

namespace TronCourier.Node

structure Service (σ : Type) where
  estimate : Simulated → StateM σ (Except Error Int)
  dryRun : Simulated → StateM σ (Except Error DryRun)
  prices : StateM σ (Except Error String)
  block : StateM σ (Except Error Block)
  broadcast : SignedTransaction → StateM σ (Except Error Verdict)
  receipt : String → View → StateM σ (Except Error (Option Receipt))

end TronCourier.Node
