import TronCourier.Manager.State

/-! How the program fails. -/

namespace TronCourier.CommandLine

inductive Failure
  | settings (path : String) (cause : SettingsError)
  | environment (cause : SettingsError)
  | client (cause : Node.Error)
  | keys (cause : KeystoreError)
  | manager (cause : Manager.Error)
  | sender (cause : Address.Error)
  | contract (cause : Address.Error)
  | params
  | rejected (cause : Manager.Error)
  | failed (id : String)
  | timedOut (id : String)
deriving DecidableEq, Repr

namespace Failure

def headline : Failure → String
  | settings path _ => "Failed to load config from " ++ path
  | environment _ => "Invalid environment override"
  | client _ => "Failed to build node client"
  | keys _ => "Failed to load TRON_PRIVATE_KEYS"
  | manager _ => "Failed to build transaction manager"
  | sender _ => "Invalid --from address"
  | contract _ => "Invalid --contract address"
  | params => "--params must be a JSON array"
  | rejected _ => "Enqueue rejected"
  | failed id => "transaction " ++ id ++ " failed"
  | timedOut id => "timed out waiting for transaction " ++ id

/-- The causes of a manager's refusal, the nearest one first. -/
def causesOf : Manager.Error → List String
  | .settings cause => [(Manager.Error.settings cause).message, cause.message]
  | e => [e.message]

def causes : Failure → List String
  | settings _ cause | environment cause => [cause.message]
  | client cause => [cause.message]
  | keys cause => [cause.message]
  | manager cause | rejected cause => causesOf cause
  | sender cause | contract cause => [cause.message]
  | params | failed _ | timedOut _ => []

/-- Sets the lines of a text in, and puts a mark before the first one. -/
def setIn (mark margin text : String) : String :=
  mark ++ String.intercalate ("\n" ++ margin) (text.splitOn "\n")

/-- The list of causes. Several causes are numbered. -/
def causesText : List String → String
  | [] => ""
  | [cause] => "\n\nCaused by:\n" ++ setIn "    " "    " cause
  | causes => "\n\nCaused by:" ++ String.join (causes.mapIdx fun n cause =>
      "\n" ++ setIn ("    " ++ toString n ++ ": ") "       " cause)

def text (f : Failure) : String :=
  "Error: " ++ f.headline ++ causesText f.causes

end Failure

end TronCourier.CommandLine
