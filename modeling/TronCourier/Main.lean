import TronCourier.CommandLine.Course
import TronCourier.Tx.FreshId

/-! The program itself. It collects variables, a file and the time, and has no
connection to a node: what is asked of one stays open. -/

open TronCourier TronCourier.CommandLine

namespace TronCourier.Program

def usage : String :=
  "Usage: tron-courier [OPTIONS] <COMMAND>\n\nCommands:\n  run   Keep a manager until interrupted\n" ++
    "  send  Submit one contract call and wait for its outcome\n  help  Print this message\n\n" ++
    "Options: --config <CONFIG>, --node <NODE>, --solidity-node <NODE>, --api-key <KEY>,\n" ++
    "  --metrics-port <PORT>, --verbose, --json-logs, --help, --version\n\n" ++
    "Options of send: --from <FROM>, --contract <CONTRACT>, --method <METHOD>,\n" ++
    "  --params <PARAMS>, --timeout-secs <SECONDS>"

def readVariable (octets : Bytes) : Option (String × String) := do
  let text ← Text.utf8? octets
  let (name, value) := text.toList.span (· ≠ '=')
  return (String.ofList name, String.ofList (value.drop 1))

/-- The variables of this process, in the order of the system. -/
def environment : IO (Table String String) := do
  let octets ← IO.FS.readBinFile "/proc/self/environ"
  let rows := (octets.toList.splitBy fun a b => (a == 0) == (b == 0)).filterMap readVariable
  return ⟨rows.filter fun row => row.1 ≠ "" && row.1.toList.head? ≠ some '\x00'⟩

def look (path : String) : IO Lookup :=
  try return .content (← IO.FS.readBinFile path).toList
  catch
    | .noFileOrDirectory _ _ _ => return .absent
    | e => return .unreadable (toString e)

def textOf : Lookup → Option String
  | .content octets => Text.utf8? octets
  | _ => none

def randomOctets : Nat → IO Bytes
  | 0 => return []
  | n + 1 => return UInt8.ofNat (← IO.rand 0 255) :: (← randomOctets n)

def report (f : Failure) : IO UInt32 := do
  IO.eprintln f.text
  return 1

def watch (m : Manager) (id : String) : Nat → IO UInt32
  | 0 =>
    match verdict? m id true with
    | some (.error f) => report f
    | _ => return 0
  | seconds + 1 => do
    match verdict? m id false with
    | some (.error f) => report f
    | some (.ok ()) => return 0
    | none =>
      IO.sleep 1000
      watch m id seconds

partial def idle : IO UInt32 := do
  IO.sleep 60000
  idle

def follow (m : Manager) (keys : Keystore) : Command → IO UInt32
  | .run => idle
  | .send c => do
    match enqueue m keys (freshId (← randomOctets 16)) c with
    | .error f => report f
    | .ok (m, id) => watch m id c.timeoutSecs

end TronCourier.Program

open TronCourier.Program

def main (args : List String) : IO UInt32 := do
  let environment ← environment
  match Arguments.read environment args with
  | .error .help =>
    IO.println usage
    return 0
  | .error .version =>
    IO.println "tron-courier 0.1.0"
    return 0
  | .error .misuse =>
    IO.eprintln usage
    return 2
  | .ok a =>
    let config ← look a.config
    let place : Place := {
      environment
      notes := textOf (← look ".env")
      find := fun _ => config }
    match place.fullEnvironment? with
    | none => return 101
    | some environment =>
      match prepare environment config a with
      | .error f => report f
      | .ok (m, keys) => follow m keys a.command
