import TronCourier.CommandLine.Arguments
import TronCourier.CommandLine.Failure
import TronCourier.CommandLine.Lookup
import TronCourier.Json.Parser
import TronCourier.Keystore
import TronCourier.Manager.Lifecycle
import TronCourier.Manager.Surroundings
import TronCourier.Node.Client
import TronCourier.Settings.Document
import TronCourier.Settings.EnvFile

/-! What the program does with its arguments: it makes a manager from settings, keys
and a node's address, hands one call to it, and waits for the outcome. -/

namespace TronCourier.CommandLine

structure Place where
  environment : Table String String
  /-- The text of the file that adds variables. -/
  notes : Option String := none
  find : String → Lookup

/-- The variables together with those of the file, if all of them can be held. -/
def Place.fullEnvironment? (p : Place) : Option (Table String String) :=
  match p.notes with
  | some text => EnvFile.load p.environment text
  | none => some p.environment

/-- The settings of a file, or without a file the usual ones. Those are checked
later. -/
def settings (environment : Table String String) (path : String) :
    Lookup → Except Failure Settings :=
  let ofContent (content : Except String Bytes) : Except Failure Settings :=
    (Settings.ofFileAndVariables path content environment.rows).mapError (.settings path)
  fun
  | .content octets => ofContent (.ok octets)
  | .unreadable reason => ofContent (.error reason)
  | .absent =>
    match ({} : Settings).override environment.rows with
    | (s, none) => .ok s
    | (_, some e) => .error (.environment e)

def prepare (environment : Table String String) (config : Lookup) (a : Arguments) :
    Except Failure (Manager × Keystore) := do
  let s ← settings environment a.config config
  let _ ← (Node.Client.ofSettings {
    fullNodeUrl := a.node
    solidNodeUrl := a.solidNode
    apiKey := a.apiKey }).mapError .client
  let texts := ((environment.get? "TRON_PRIVATE_KEYS").getD "").splitOn ","
  let keys ← (Keystore.ofHexKeys texts).mapError .keys
  let m ← (Manager.ofSettings s false).mapError .manager
  return (m, keys)

def request (c : Call) : Except Failure Request := do
  let sender ← (Address.parse c.sender).mapError .sender
  let contract ← (Address.parse c.contract).mapError .contract
  match (Json.parse c.params).bind (Json.listOf? Json.held?) with
  | some params => return { sender, contract, method := c.method, params }
  | none => .error .params

/-- Surroundings in which keys are at hand and a node is not. -/
def withoutNode (keys : Keystore) : Surroundings Unit :=
  let unheard {α : Type} : StateM Unit (Except Node.Error α) :=
    pure (.error (.transport "" "no answer"))
  { estimate := fun _ => unheard
    dryRun := fun _ => unheard
    prices := unheard
    block := unheard
    broadcast := fun _ => unheard
    receipt := fun _ _ => unheard
    sign := fun a digest => pure (keys.sign a digest)
    retries := fun _ => pure (.ok 0) }

/-- Hands a call to a manager. The fresh id is for its transaction. -/
def enqueue (m : Manager) (keys : Keystore) (fresh : String) (c : Call) :
    Except Failure (Manager × String) := do
  match ((m.enqueue (withoutNode keys) (← request c) fresh).run ()).1 with
  | (m, .accepted id) => return (m, id)
  | (_, .rejected e) => .error (.rejected e)
  | (_, .waiting _) => .error (.timedOut fresh)

/-- What a look at a transaction tells, if anything. A deadline is looked at last. -/
def verdict? (m : Manager) (id : String) (late : Bool) : Option (Except Failure Unit) :=
  match m.status id with
  | .finalized => some (.ok ())
  | .fatal => some (.error (.failed id))
  | _ => if late then some (.error (.timedOut id)) else none

inductive Outcome
  | done
  | detour (d : Detour)
  | failed (f : Failure)
  /-- A variable of the file cannot be held. -/
  | unholdable
  /-- The deadline lies beyond what a clock can hold. -/
  | beyondTime
  /-- There is no end while nobody intervenes. -/
  | endless
deriving DecidableEq, Repr

def Outcome.exitCode : Outcome → Nat
  | done | endless | detour .help | detour .version => 0
  | failed _ => 1
  | detour .misuse => 2
  | unholdable | beyondTime => 101

/-- Whether a clock that may have run since its start can hold a deadline. -/
def clockHolds (seconds : Nat) : Bool :=
  seconds < 0x7FFFFF0000000000

/-- What a call comes to if no node ever answers and its deadline passes. -/
def outcomeOf (m : Manager) (keys : Keystore) (fresh : String) (c : Call) : Outcome :=
  match enqueue m keys fresh c with
  | .error f => .failed f
  | .ok (m, id) =>
    if !clockHolds c.timeoutSecs then .beyondTime
    else match verdict? m id true with
      | some (.error f) => .failed f
      | _ => .done

/-- What a command comes to if no node ever answers. -/
def outcome (p : Place) (args : List String) (fresh : String) : Outcome :=
  match Arguments.read p.environment args with
  | .error d => .detour d
  | .ok a =>
    match p.fullEnvironment? with
    | none => .unholdable
    | some environment =>
      match prepare environment (p.find a.config) a with
      | .error f => .failed f
      | .ok (m, keys) =>
        match a.command with
        | .run => .endless
        | .send c => outcomeOf m keys fresh c

end TronCourier.CommandLine
