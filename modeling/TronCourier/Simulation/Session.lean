import TronCourier.Simulation.World

/-! A manager at work in a simulated world. Requests without an id are numbered in
the order in which they are accepted. -/

namespace TronCourier.Simulation

structure Session (ν : Type) where
  clock : Clockwork (World ν)
  scene : Scene (World ν)
  /-- The ids that were asked for or given, each once. -/
  seen : List String := []
  numbered : Nat := 0

namespace Session

variable {ν : Type}

def see (s : Session ν) (id : String) : Session ν :=
  if s.seen.contains id then s else { s with seen := s.seen ++ [id] }

def enqueue (s : Session ν) (r : Request) : Session ν × Manager.Progress :=
  let fresh := "#" ++ toString (s.numbered + 1)
  let (clock, progress) := s.clock.enqueue s.scene r fresh
  let s := { s with clock }
  match r.id, progress with
  | some id, _ => (s.see id, progress)
  | none, .accepted id => ({ s with numbered := s.numbered + 1 }.see id, progress)
  | none, _ => (s, progress)

def changeWorld (s : Session ν) (change : World ν → World ν) : Session ν :=
  { s with clock := { s.clock with world := change s.clock.world } }

def changeNode (s : Session ν) (change : ν → ν) : Session ν :=
  s.changeWorld fun w => { w with node := change w.node }

def changeMessages (s : Session ν) (change : Messages → Messages) : Session ν :=
  s.changeWorld fun w => { w with messages := change w.messages }

def ofManager (m : Manager) (node : ν) (service : Nat → Node.Service ν) (signer : Signer) : Session ν where
  clock := { manager := m, world := { node } }
  scene now := World.surroundings (service now) signer

end Session

end TronCourier.Simulation
