import TronCourier.Manager.State

/-! Starting and closing a manager, each as a row of small steps, and evicting
finished transactions. A part that starts after the others were told to stop does
not hear of it. -/

namespace TronCourier

namespace Manager

def begin (m : Manager) : Except Error Manager :=
  match m.lifecycle with
  | .idle => .ok { m with lifecycle := .running }
  | .running => .error .alreadyStarted
  | .closed => .error .closed

def takeOutlet (m : Manager) : Except Error Manager :=
  if m.outletFree then .ok { m with outletFree := false } else .error .alreadyStarted

def spawn (m : Manager) : Worker → Manager
  | .sender => { m with sender := .idle }
  | .poller => { m with poller := .resting }
  | .reaper => { m with reaper := .resting }

def allWorkers : List Worker :=
  [.sender, .poller, .reaper]

def register (m : Manager) : Manager :=
  { m with workers := m.workers ++ allWorkers }

def start (m : Manager) : Except Error Manager := do
  let m ← (← m.begin).takeOutlet
  return (allWorkers.foldl spawn m).register

def isActive (m : Manager) : Worker → Bool
  | .sender => match m.sender with
    | .absent | .stopped => false
    | _ => true
  | .poller => match m.poller with
    | .absent | .stopped => false
    | _ => true
  | .reaper => match m.reaper with
    | .absent | .stopped => false
    | _ => true

def tellToStop (m : Manager) : Manager :=
  { m with halting := m.halting ++ allWorkers.filter m.isActive }

/-- A part stops, whatever it was doing. With the sender the queue goes away. -/
def halt (m : Manager) : Worker → Manager
  | .sender => { m with
      sender := .stopped, queue := [], queueOpen := false, poller := m.poller.refuse }
  | .poller => { m with poller := .stopped }
  | .reaper => { m with reaper := .stopped }

/-- Closes a manager for good and waits for its parts. -/
def close (m : Manager) : Manager :=
  if m.lifecycle = .closed then m
  else
    let m := { m with lifecycle := .closed }.tellToStop
    { m.workers.foldl halt m with workers := [] }

/-- Begins to evict what has been finished for the retention period. -/
def beginSweep (m : Manager) (now : Nat) (accounts : List Address) : Manager :=
  { m with reaper := .sweeping now accounts 0 }

def sweep (m : Manager) (begun : Nat) (a : Address) (later : List Address) (evicted : Nat) :
    Manager :=
  let (s, n) := (m.store a).reap (m.settings.retentionSecs * 1000) begun
  { m.setStore a s with reaper := .sweeping begun later (evicted + n) }

def endSweep (m : Manager) (evicted : Nat) : Manager :=
  { m.count fun c => { c with reaped := c.reaped + evicted } with reaper := .resting }

end Manager

end TronCourier
