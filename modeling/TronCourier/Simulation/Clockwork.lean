import TronCourier.Manager.Lifecycle
import TronCourier.Manager.Surroundings

/-! Running a manager on a clock that is set forward by hand. The parts that can go
on do so one after another, in the order in which they were woken, each until it
has to wait. Questions take no time. Then the clock goes to the next timer. -/

namespace TronCourier.Simulation

structure Timer where
  due : Nat
  /-- Timers that are due together ring in the order in which they were set. -/
  rank : Nat
  worker : Worker
deriving DecidableEq, Repr

def Timer.before (a b : Timer) : Bool :=
  a.due < b.due || (a.due == b.due && a.rank ≤ b.rank)

structure Clockwork (σ : Type) where
  manager : Manager
  world : σ
  now : Nat := 0
  ready : List Worker := []
  timers : List Timer := []
  nextRank : Nat := 0
  /-- When the next pass and the next eviction begin. -/
  passAt : Option Nat := none
  reapAt : Option Nat := none

abbrev Scene (σ : Type) := Nat → Surroundings σ

namespace Clockwork

variable {σ : Type}

def wake (c : Clockwork σ) (w : Worker) : Clockwork σ :=
  if c.ready.contains w then c else { c with ready := c.ready ++ [w] }

def setTimer (c : Clockwork σ) (w : Worker) (due : Nat) : Clockwork σ :=
  { c with
    timers := c.timers.filter (fun t => t.worker ≠ w) ++ [⟨due, c.nextRank, w⟩]
    nextRank := c.nextRank + 1 }

/-- A manager's next state. An idle sender is woken if there is something in the
queue, and a poller if it got a place there or none. -/
def become (c : Clockwork σ) (m : Manager) : Clockwork σ :=
  let grew := c.manager.queue.length < m.queue.length
  let c := { c with manager := m }
  let c := match m.sender with
    | .idle => if grew then c.wake .sender else c
    | _ => c
  match m.poller with
  | .granted _ _ _ | .refused _ _ _ => c.wake .poller
  | _ => c

/-- The time after `due` at which something periodic happens again. If it is late,
the period counts from now. -/
def nextRound (due now period : Nat) : Nat :=
  if due + 5 < now then now + period else due + period

def senderStep (scene : Scene σ) (c : Clockwork σ) : Option (Clockwork σ) :=
  match c.manager.sender with
  | .idle => (c.manager.take?).map c.become
  | .busy a =>
    let (answer, world) := (a.ask (scene c.now)).run c.world
    some ({ c with world }.become (c.manager.answered c.now a answer))
  | .asleep p wake => if wake ≤ c.now then some (c.become (c.manager.wake p)) else none
  | .absent | .stopped => none

def pollerStep (scene : Scene σ) (c : Clockwork σ) : Option (Clockwork σ) :=
  let m := c.manager
  match m.poller with
  | .resting =>
    match c.passAt with
    | some due =>
      if due ≤ c.now then
        let period := m.settings.confirmPollSecs * 1000
        some ({ c with passAt := some (nextRound due c.now period) }.become
          (m.beginPass m.accounts.stores.keys))
      else none
    | none => none
  | .surveying [] => some (c.become m.endPass)
  | .surveying (a :: later) =>
    some (c.become (m.afterSettling (m.store a).settlingRows { account := a, later }))
  | .collecting pass =>
    some (c.become (m.afterAwaiting (m.store pass.account).awaitingRows pass))
  | .asking q =>
    let (answer, world) := (q.ask (scene c.now)).run c.world
    some ({ c with world }.become (m.informed c.now q answer))
  | .failed tx reason next rest pass =>
    some (c.become (m.afterFailure c.now tx reason next rest pass))
  | .requeuing tx rest pass => some (c.become (m.requeue tx rest pass))
  | .granted tx rest pass => some (c.become (m.usePlace tx rest pass))
  | .refused tx rest pass => some (c.become (m.withoutPlace c.now tx rest pass))
  | .blocked _ _ _ | .absent | .stopped => none

def reaperStep (c : Clockwork σ) : Option (Clockwork σ) :=
  let m := c.manager
  match m.reaper, c.reapAt with
  | .resting, some due =>
    if due ≤ c.now then
      let period := m.settings.reapIntervalSecs * 1000
      some ({ c with reapAt := some (nextRound due c.now period) }.become
        (m.beginSweep c.now m.accounts.stores.keys))
    else none
  | .sweeping begun (a :: later) n, _ => some (c.become (m.sweep begun a later n))
  | .sweeping _ [] n, _ => some (c.become (m.endSweep n))
  | _, _ => none

def exhaust (step : Clockwork σ → Option (Clockwork σ)) : Nat → Clockwork σ → Clockwork σ
  | 0, c => c
  | fuel + 1, c =>
    match step c with
    | some c => exhaust step fuel c
    | none => c

/-- How many steps a part may take before it has to wait. -/
def patience : Nat := 1000000

def run (scene : Scene σ) (c : Clockwork σ) : Worker → Clockwork σ
  | .sender =>
    let c := c.exhaust (senderStep scene) patience
    match c.manager.sender with
    | .asleep _ wake => c.setTimer .sender wake
    | _ => c
  | .poller =>
    let first := c.now + c.manager.settings.confirmPollSecs * 1000
    let c := { c with passAt := some (c.passAt.getD first) }.exhaust (pollerStep scene) patience
    match c.manager.poller, c.passAt with
    | .resting, some due => c.setTimer .poller due
    | _, _ => c
  | .reaper =>
    let first := c.now + c.manager.settings.reapIntervalSecs * 1000
    let c := { c with reapAt := some (c.reapAt.getD first) }.exhaust reaperStep patience
    match c.manager.reaper, c.reapAt with
    | .resting, some due => c.setTimer .reaper due
    | _, _ => c

def ring (c : Clockwork σ) : Clockwork σ :=
  let due := (c.timers.filter fun t => t.due ≤ c.now).mergeSort Timer.before
  due.foldl (fun c t => c.wake t.worker)
    { c with timers := c.timers.filter fun t => c.now < t.due }

/-- Lets time pass up to a target. What is due at the target itself waits. -/
def advance (scene : Scene σ) (target : Nat) : Nat → Clockwork σ → Clockwork σ
  | 0, c => c
  | fuel + 1, c =>
    let c := c.ring
    match c.ready with
    | w :: rest => advance scene target fuel ({ c with ready := rest }.run scene w)
    | [] =>
      match (c.timers.map Timer.due).min? with
      | some due =>
        if due < target then advance scene target fuel { c with now := due }
        else { c with now := target }
      | none => { c with now := target }

/-- Sleeps. A sleep of no time gives way to nobody. -/
def sleep (scene : Scene σ) (c : Clockwork σ) (ms : Nat) : Clockwork σ :=
  if ms = 0 then c else c.advance scene (c.now + ms) (patience * patience)

/-- Looks every quarter of a second whether a transaction has come to a stage, up
to a deadline and once more after it. -/
def await (scene : Scene σ) (id : String) (g : Stage) (deadline : Nat) :
    Nat → Clockwork σ → Clockwork σ × Bool
  | 0, c => (c, c.manager.stage? id == some g)
  | fuel + 1, c =>
    if c.now < deadline then
      if c.manager.stage? id = some g then (c, true)
      else await scene id g deadline fuel (c.sleep scene 250)
    else (c, c.manager.stage? id == some g)

def awaitStage (scene : Scene σ) (c : Clockwork σ) (id : String) (g : Stage) (ms : Nat) :
    Clockwork σ × Bool :=
  c.await scene id g (c.now + ms) (ms / 250 + 2)

def start (c : Clockwork σ) : Except Manager.Error (Clockwork σ) := do
  let m ← c.manager.start
  return { c with manager := m, ready := c.ready ++ Manager.allWorkers }

/-- Closes the manager. Nothing is ready or due after that. -/
def close (c : Clockwork σ) : Clockwork σ :=
  { c with manager := c.manager.close, ready := [], timers := [] }

def enqueue (scene : Scene σ) (c : Clockwork σ) (r : Request) (fresh : String) :
    Clockwork σ × Manager.Progress :=
  let ((m, progress), world) := (c.manager.enqueue (scene c.now) r fresh).run c.world
  ({ c with world }.become m, progress)

end Clockwork

end TronCourier.Simulation
