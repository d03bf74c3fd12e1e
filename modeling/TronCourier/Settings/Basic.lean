import TronCourier.Number.Decimal
import TronCourier.Number.Bounds

/-! What a manager can be told about queues, periods, retries and fees, and what
of it is refused. -/

namespace TronCourier

/-- The result codes that end a transaction for good, and those that mean that
it succeeded. -/
structure ResultCodes where
  fatal : List String := ["REVERT", "BAD_JUMP_DESTINATION", "OUT_OF_MEMORY", "STACK_TOO_SMALL",
    "STACK_TOO_LARGE", "STACK_OVERFLOW", "JVM_STACK_OVER_FLOW", "ILLEGAL_OPERATION",
    "TRANSFER_FAILED", "INVALID_CODE"]
  success : List String := ["SUCCESS", "DEFAULT"]
deriving DecidableEq, Repr

namespace ResultCodes

def isFatal (codes : ResultCodes) (code : String) : Bool :=
  codes.fatal.contains code

def isSuccess (codes : ResultCodes) (code : String) : Bool :=
  codes.success.contains code

end ResultCodes

structure Settings where
  queueCapacity : Nat := 100
  confirmPollSecs : Nat := 5
  /-- What a fee limit is multiplied by after each failure for lack of energy. -/
  energyMultiplier : Binary64 := ⟨false, 0x3FF8000000000000⟩
  retentionSecs : Nat := 3600
  reapIntervalSecs : Nat := 60
  maxAttempts : Nat := 5
  maxOutOfTime : Nat := 2
  /-- How long to wait before a busy node is asked again, and how long in all. -/
  retryDelayMs : Nat := 2000
  maxRetrySecs : Nat := 30
  priceRefreshSecs : Nat := 60
  defaultPrice : Int := 420
  lifetime : Int := 30000
  resultCodes : ResultCodes := {}
deriving DecidableEq, Repr

inductive InvalidSetting
  | notPositive (name : String)
  | multiplierBelowOne (value : Binary64)
deriving DecidableEq, Repr

def InvalidSetting.message : InvalidSetting → String
  | notPositive name => name ++ " must be > 0"
  | multiplierBelowOne value => "energy_multiplier must be >= 1.0, got " ++ value.display

inductive SettingsError
  | unreadable (path reason : String)
  | malformed
  | badOverride (name value : String)
  | invalid (cause : InvalidSetting)
deriving DecidableEq, Repr

def SettingsError.message : SettingsError → String
  | unreadable path reason => "Failed to read config file " ++ path ++ ": " ++ reason
  | malformed => "Failed to parse TOML"
  | badOverride name value => "Invalid environment override " ++ name ++ "=" ++ value
  | invalid cause => "Invalid configuration: " ++ cause.message

namespace Settings

def fault? (s : Settings) : Option InvalidSetting :=
  if s.queueCapacity = 0 then some (.notPositive "broadcast_chan_size")
  else if s.confirmPollSecs = 0 then some (.notPositive "confirm_poll_secs")
  else if s.reapIntervalSecs = 0 then some (.notPositive "reap_interval_secs")
  else if !(Binary64.ofInt 1).le s.energyMultiplier then
    some (.multiplierBelowOne s.energyMultiplier)
  else if s.maxAttempts = 0 then some (.notPositive "max_attempts")
  else if s.defaultPrice ≤ 0 then some (.notPositive "default_energy_unit_price")
  else if s.lifetime ≤ 0 then some (.notPositive "tx_expiration_ms")
  else none

def validate (s : Settings) : Except SettingsError Settings :=
  match s.fault? with
  | some cause => .error (.invalid cause)
  | none => .ok s

def natural? (limit : Nat) (value : String) : Option Nat :=
  (Text.readNat limit value.toList).toOption

def integer? (value : String) : Option Int :=
  (Text.readInt64 value.toList).toOption

/-- Settings with one of them replaced by a text. Unknown names change nothing. -/
def replace? (s : Settings) (name value : String) : Option Settings :=
  match name with
  | "BROADCAST_CHAN_SIZE" => (natural? nat64Max value).map fun n => { s with queueCapacity := n }
  | "CONFIRM_POLL_SECS" => (natural? nat64Max value).map fun n => { s with confirmPollSecs := n }
  | "ENERGY_MULTIPLIER" => (Text.readBinary64 value).map fun x => { s with energyMultiplier := x }
  | "RETENTION_PERIOD_SECS" =>
    (natural? nat64Max value).map fun n => { s with retentionSecs := n }
  | "REAP_INTERVAL_SECS" =>
    (natural? nat64Max value).map fun n => { s with reapIntervalSecs := n }
  | "MAX_ATTEMPTS" => (natural? nat32Max value).map fun n => { s with maxAttempts := n }
  | "DEFAULT_ENERGY_UNIT_PRICE" => (integer? value).map fun n => { s with defaultPrice := n }
  | "TX_EXPIRATION_MS" => (integer? value).map fun n => { s with lifetime := n }
  | _ => some s

/-- What the names of variables that replace a setting start with. -/
def variableMarker : String := "TRON_TXM_"

/-- Applies variables in their order up to the first one that cannot be read. -/
def override (s : Settings) : List (String × String) → Settings × Option SettingsError
  | [] => (s, none)
  | (name, value) :: rest =>
    if variableMarker.toList.isPrefixOf name.toList then
      match s.replace? (String.ofList (name.toList.drop variableMarker.length)) value with
      | some s => s.override rest
      | none => (s, some (.badOverride name value))
    else s.override rest

end Settings

end TronCourier
