import TronCourier.Number.Bounds
import TronCourier.Store.Table
import TronCourier.Text.Integer

/-! The arguments of the program. Switches stand before the command and after it,
each at most once. A switch with a value has it attached or in the next argument,
which then must not look like a switch. -/

namespace TronCourier.CommandLine

inductive Detour
  | help
  | version
  | misuse
deriving DecidableEq, Repr

inductive Role
  | mark
  | value (accepts : String → Bool)
  | detour (d : Detour)

structure Switch where
  long : String
  short : Option Char := none
  role : Role

structure Given where
  values : Table String String := .empty
  /-- A switch whose value is still to come or still to be looked at. -/
  pending : Option (Switch × Option String) := none

namespace Given

def put (g : Given) (s : Switch) (value : String) : Except Detour Given :=
  let accepted := match s.role with
    | .value accepts => accepts value
    | _ => true
  if g.values.contains s.long || !accepted then .error .misuse
  else .ok { g with values := g.values.insert s.long value }

def settle (g : Given) : Except Detour Given :=
  match g.pending with
  | none => .ok g
  | some (s, some value) => { g with pending := none }.put s value
  | some (_, none) => .error .misuse

def waits (g : Given) : Bool :=
  match g.pending with
  | some (_, none) => true
  | _ => false

/-- Takes a switch, which may have a value attached to it. -/
def take (g : Given) (s : Switch) (attached : Option String) : Except Detour Given :=
  match s.role, attached with
  | .value _, some value => do (← g.settle).put s value
  | .value _, none => do return { ← g.settle with pending := some (s, none) }
  | .mark, none => do (← g.settle).put s ""
  | .detour d, none => do
    let _ ← g.settle
    .error d
  | _, some _ => .error .misuse

end Given

/-- Reads a cluster of short switches. What follows a switch with a value is the
value. -/
def readCluster (switches : List Switch) (g : Given) : List Char → Except Detour Given
  | [] => .ok g
  | c :: r =>
    match switches.find? fun s => s.short = some c with
    | none => .error .misuse
    | some s =>
      match s.role, r with
      | .value _, '=' :: value => g.take s (some (String.ofList value))
      | .value _, _ :: _ => g.take s (some (String.ofList r))
      | .value _, [] => g.take s none
      | _, _ => do readCluster switches (← g.take s none) r

def readLong (switches : List Switch) (g : Given) (cs : List Char) : Except Detour Given :=
  let name := String.ofList (cs.takeWhile (· ≠ '='))
  let attached := match cs.dropWhile (· ≠ '=') with
    | _ :: value => some (String.ofList value)
    | [] => none
  match switches.find? fun s => s.long = name with
  | some s => g.take s attached
  | none => .error .misuse

/-- Reads switches up to the end or to the name of a command. -/
def readSwitches (switches : List Switch) (commands : List String) (g : Given) :
    List String → Except Detour (Given × Option (String × List String))
  | [] => .ok (g, none)
  | arg :: rest =>
    if !g.waits && commands.contains arg then .ok (g, some (arg, rest))
    else match arg.toList with
      | ['-', '-'] => if rest.isEmpty then .ok (g, none) else .error .misuse
      | '-' :: '-' :: cs => do readSwitches switches commands (← readLong switches g cs) rest
      | '-' :: c :: cs => do
        readSwitches switches commands (← readCluster switches g (c :: cs)) rest
      | _ =>
        match g.pending with
        | some (s, none) =>
          readSwitches switches commands { g with pending := some (s, some arg) } rest
        | _ => .error .misuse

def anyText : Role :=
  .value fun _ => true

/-- A port is read as an integer with a sign, so that zero may have one. -/
def port : Role :=
  .value fun s =>
    match Text.readInt64 s.toList with
    | .ok i => 0 ≤ i && i ≤ (nat16Max : Int)
    | .error _ => false

def seconds : Role :=
  .value fun s => (Text.readNat nat64Max s.toList).isOk

def helpSwitch : Switch :=
  ⟨"help", some 'h', .detour .help⟩

def switches : List Switch :=
  [⟨"config", some 'c', anyText⟩, ⟨"node", none, anyText⟩, ⟨"solidity-node", none, anyText⟩,
    ⟨"api-key", none, anyText⟩, ⟨"verbose", some 'v', .mark⟩, ⟨"json-logs", none, .mark⟩,
    ⟨"metrics-port", none, port⟩, helpSwitch,
    ⟨"version", some 'V', .detour .version⟩]

def sendSwitches : List Switch :=
  [⟨"from", none, anyText⟩, ⟨"contract", none, anyText⟩, ⟨"method", none, anyText⟩,
    ⟨"params", none, anyText⟩, ⟨"timeout-secs", none, seconds⟩, helpSwitch]

structure Call where
  sender : String
  contract : String
  method : String
  params : String
  timeoutSecs : Nat
deriving DecidableEq, Repr

inductive Command
  | run
  | send (call : Call)
deriving DecidableEq, Repr

structure Arguments where
  config : String
  node : String
  solidNode : Option String
  apiKey : Option String
  command : Command
deriving DecidableEq, Repr

def readTail (switches : List Switch) (args : List String) :
    Except Detour (Table String String) := do
  let (g, _) ← readSwitches switches [] {} args
  return (← g.settle).values

def readNumber (s : String) : Nat :=
  ((Text.readNat nat64Max s.toList).toOption).getD 0

def readCall (args : List String) : Except Detour Call := do
  let given ← readTail sendSwitches args
  let required (name : String) : Except Detour String :=
    match given.get? name with
    | some value => .ok value
    | none => .error .misuse
  return {
    sender := ← required "from"
    contract := ← required "contract"
    method := ← required "method"
    params := (given.get? "params").getD "[]"
    timeoutSecs := ((given.get? "timeout-secs").map readNumber).getD 300 }

def readCommand : String → List String → Except Detour Command
  | "run", args => do
    let _ ← readTail [helpSwitch] args
    return .run
  | "send", args => do return .send (← readCall args)
  | _, [] => .error .help
  | _, [topic] => .error (if ["run", "send", "help"].contains topic then .help else .misuse)
  | _, _ => .error .misuse

/-- Reads all arguments. Variables stand in for some switches that were not given.
What follows the command is looked at before a value in front of it. -/
def Arguments.read (environment : Table String String) (args : List String) :
    Except Detour Arguments := do
  let (g, found) ← readSwitches switches ["run", "send", "help"] {} args
  match found with
  | none => .error .misuse
  | some (name, rest) =>
    let command ← readCommand name rest
    let given := (← g.settle).values
    let value? (name standIn : String) : Option String :=
      (given.get? name).or (environment.get? standIn)
    return {
      config := (given.get? "config").getD "config.toml"
      node := (value? "node" "TRON_FULL_NODE_URL").getD "https://api.trongrid.io"
      solidNode := value? "solidity-node" "TRON_SOLIDITY_NODE_URL"
      apiKey := value? "api-key" "TRON_PRO_API_KEY"
      command }

end TronCourier.CommandLine
