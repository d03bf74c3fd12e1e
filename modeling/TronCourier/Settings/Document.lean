import TronCourier.Json.Record
import TronCourier.Settings.Basic
import TronCourier.Text.Utf8
import TronCourier.Toml.Parser

/-! Settings from documents. A setting that is left out keeps its default. -/

namespace TronCourier

namespace ResultCodes

/-- Reads codes from a record, as `fields?` sees records. -/
def read? (fields? : List String → Json → Option Json.Fields) (j : Json) : Option ResultCodes := do
  let standard : ResultCodes := {}
  let fs ← fields? ["fatal", "success"] j
  return {
    fatal := ← fs.withDefault "fatal" standard.fatal (Json.listOf? Json.str?)
    success := ← fs.withDefault "success" standard.success (Json.listOf? Json.str?) }

def json? : Json → Option ResultCodes :=
  read? Json.fields?

end ResultCodes

namespace Settings

def read? (fields? : List String → Json → Option Json.Fields) (j : Json) : Option Settings := do
  let standard : Settings := {}
  let fs ← fields? ["broadcast_chan_size", "confirm_poll_secs", "energy_multiplier",
    "retention_period_secs", "reap_interval_secs", "max_attempts", "max_out_of_time_errors",
    "broadcast_retry_delay_ms", "broadcast_max_retry_secs", "energy_price_refresh_secs",
    "default_energy_unit_price", "tx_expiration_ms", "result_codes"] j
  let wide := Json.nat? nat64Max
  let narrow := Json.nat? nat32Max
  return {
    queueCapacity := ← fs.withDefault "broadcast_chan_size" standard.queueCapacity wide
    confirmPollSecs := ← fs.withDefault "confirm_poll_secs" standard.confirmPollSecs wide
    energyMultiplier :=
      ← fs.withDefault "energy_multiplier" standard.energyMultiplier Json.binary64?
    retentionSecs := ← fs.withDefault "retention_period_secs" standard.retentionSecs wide
    reapIntervalSecs := ← fs.withDefault "reap_interval_secs" standard.reapIntervalSecs wide
    maxAttempts := ← fs.withDefault "max_attempts" standard.maxAttempts narrow
    maxOutOfTime := ← fs.withDefault "max_out_of_time_errors" standard.maxOutOfTime narrow
    retryDelayMs := ← fs.withDefault "broadcast_retry_delay_ms" standard.retryDelayMs wide
    maxRetrySecs := ← fs.withDefault "broadcast_max_retry_secs" standard.maxRetrySecs wide
    priceRefreshSecs := ← fs.withDefault "energy_price_refresh_secs" standard.priceRefreshSecs wide
    defaultPrice := ← fs.withDefault "default_energy_unit_price" standard.defaultPrice Json.int64?
    lifetime := ← fs.withDefault "tx_expiration_ms" standard.lifetime Json.int64?
    resultCodes := ← fs.withDefault "result_codes" standard.resultCodes (ResultCodes.read? fields?) }

def json? : Json → Option Settings :=
  read? Json.fields?

/-- Records of a TOML document. A list for a record may be longer than it. -/
def tomlFields? (names : List String) : Json → Option Json.Fields
  | .arr items => Json.fields? names (.arr (items.take names.length))
  | j => Json.fields? names j

def ofToml (text : String) : Except SettingsError Settings :=
  match (Toml.parse text).bind (read? tomlFields?) with
  | some s => s.validate
  | none => .error .malformed

def ofFile (path : String) (content : Except String Bytes) : Except SettingsError Settings := do
  let octets ← content.mapError (.unreadable path)
  match Text.utf8? octets with
  | some text => ofToml text
  | none => .error (.unreadable path "stream did not contain valid UTF-8")

def ofFileAndVariables (path : String) (content : Except String Bytes)
    (environment : List (String × String)) : Except SettingsError Settings := do
  let s ← ofFile path content
  match s.override environment with
  | (s, none) => s.validate
  | (_, some e) => .error e

end Settings

end TronCourier
