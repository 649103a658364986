import Rota.Number.Shortest
import Rota.Settings.Basic
import Rota.Toml.Basic

/-!
# Settings from values

Values from files and from the environment are turned into settings.

* `Toml.toText?`, `Toml.toNat?`, `Toml.toBool?`   generous conversions: numbers and truth values
  count as texts, texts as numbers and truth values;
* `Interval.ofToml?`, `WeekdaySpec.ofToml?`       a number or a text, as it stands;
* `Settings.ofToml?`                              all settings.

What a module runs (`command`, `args`, `timeout_seconds`) is taken as it stands, too.  Unknown
fields are passed over, and missing ones take their standard values.
-/

namespace Rota

open Text

namespace Toml

def lowerText (s : String) : String := String.ofList (s.toList.map Char.toLower)

def truthOf? (s : String) : Option Bool :=
  let s := lowerText s
  if s = "true" ∨ s = "on" ∨ s = "yes" then some true
  else if s = "false" ∨ s = "off" ∨ s = "no" then some false
  else none

def toText? : Toml → Option String
  | .null => none
  | .text s => some s
  | .bool b => some (if b then "true" else "false")
  | .int n => some (String.ofList (Numeral.integer n))
  | .float x => some x.text
  | .list _ => none
  | .table _ => none

def ofTruth (b : Bool) : Nat := if b then 1 else 0

def natBound : Nat := UInt64.size

def toWord? : Toml → Option Nat
  | .null => none
  | .int n => if 0 ≤ n then some n.toNat else none
  | .text s =>
    match truthOf? s with
    | some b => some (ofTruth b)
    | none => Numeral.unsigned? natBound s.toList
  | .bool b => some (ofTruth b)
  | .float x => some (x.toNat natBound)
  | .list _ => none
  | .table _ => none

def toNat? (bound : Nat) (v : Toml) : Option Nat :=
  v.toWord?.filter fun n => n < bound

def toBool? : Toml → Option Bool
  | .null => none
  | .bool b => some b
  | .int n => some (n != 0)
  | .float x => some x.isNonZero
  | .text s => if s = "1" then some true else if s = "0" then some false else truthOf? s
  | .list _ => none
  | .table _ => none

def exactText? : Toml → Option String
  | .text s => some s
  | _ => none

def exactNat? (bound : Nat) : Toml → Option Nat
  | .int n => if 0 ≤ n ∧ n < bound then some n.toNat else none
  | _ => none

/-- the fields of a record with these keys: a table, or an array that lists the values in the order
of the keys -/
def record? (keys : List String) : Toml → Option Fields
  | .table fields => some fields
  | .list items => some (keys.zip items)
  | _ => none

/-- a field that may be missing or null; else it has to fit -/
def field? {α : Type} (fields : Fields) (key : String) (decode : Toml → Option α) :
    Option (Option α) :=
  match fields.lookup key with
  | none => some none
  | some .null => some none
  | some v => (decode v).map some

/-- a field that takes a standard value when it is missing; when it is there it has to fit -/
def fieldOr? {α : Type} (fields : Fields) (key : String) (decode : Toml → Option α) (standard : α) :
    Option α :=
  match fields.lookup key with
  | none => some standard
  | some v => decode v

def needed? {α : Type} (fields : Fields) (key : String) (decode : Toml → Option α) : Option α :=
  (fields.lookup key).bind decode

def list? {α : Type} (decode : Toml → Option α) : Toml → Option (List α)
  | .list items => items.mapM decode
  | _ => none

end Toml

def Interval.ofToml? : Toml → Option Interval
  | .text s => (Interval.parse s).toOption
  | v => (v.exactNat? Interval.secondsBound).map .seconds

def WeekdaySpec.ofToml? : Toml → Option WeekdaySpec
  | .text s => some (.name s)
  | v => (v.exactNat? UInt32.size).map .number

def ScheduleConfig.ofToml? (v : Toml) : Option ScheduleConfig := do
  let fields ← v.record? ["interval", "day", "wday", "time", "run_on_start", "timezone"]
  let interval ← Toml.field? fields "interval" Interval.ofToml?
  let day ← Toml.field? fields "day" (Toml.toNat? UInt32.size)
  let wday ← Toml.field? fields "wday" WeekdaySpec.ofToml?
  let time ← Toml.field? fields "time" Toml.toText?
  let runOnStart ← Toml.fieldOr? fields "run_on_start" Toml.toBool? false
  let timezone ← Toml.field? fields "timezone" Toml.toText?
  return { interval, day, wday, time, runOnStart, timezone }

def AgentSettings.ofToml? (v : Toml) : Option AgentSettings := do
  let fields ← v.record?
    ["log_level", "json_logs", "timezone", "wake_resolution_ms", "state_dir", "report_capacity",
      "metrics_port"]
  let standard : AgentSettings := {}
  let logLevel ← Toml.fieldOr? fields "log_level" Toml.toText? standard.logLevel
  let jsonLogs ← Toml.fieldOr? fields "json_logs" Toml.toBool? standard.jsonLogs
  let timezone ← Toml.fieldOr? fields "timezone" Toml.toText? standard.timezone
  let wakeResolutionMs ←
    Toml.fieldOr? fields "wake_resolution_ms" Toml.toWord? standard.wakeResolutionMs
  let stateDir ← Toml.field? fields "state_dir" Toml.toText?
  let reportCapacity ← Toml.fieldOr? fields "report_capacity" Toml.toWord? standard.reportCapacity
  let metricsPort ← Toml.field? fields "metrics_port" (Toml.toNat? UInt16.size)
  return { logLevel, jsonLogs, timezone, wakeResolutionMs, stateDir, reportCapacity, metricsPort }

def ModuleKind.ofToml? (fields : Toml.Fields) : Option ModuleKind := do
  let kind ← Toml.needed? fields "kind" Toml.exactText?
  if kind = "heartbeat" then return .heartbeat
  else if kind = "command" then
    let program ← Toml.needed? fields "command" Toml.exactText?
    let args ← Toml.fieldOr? fields "args" (Toml.list? Toml.exactText?) []
    let timeout ←
      Toml.fieldOr? fields "timeout_seconds" (Toml.exactNat? Toml.natBound) standardTimeout
    return .command program args timeout
  else none

def ModuleSettings.ofToml? : Toml → Option ModuleSettings
  | .table fields => do
    let name ← Toml.needed? fields "name" Toml.toText?
    let enabled ← Toml.fieldOr? fields "enabled" Toml.toBool? true
    let kind ← ModuleKind.ofToml? fields
    let defaultInterval ←
      Toml.fieldOr? fields "default_interval" Interval.ofToml? (.seconds Interval.day)
    let schedule ← Toml.fieldOr? fields "schedule" ScheduleConfig.ofToml? {}
    return { name, enabled, kind, defaultInterval, schedule }
  | _ => none

def Settings.ofToml? (v : Toml) : Option Settings := do
  let fields ← v.record? ["agent", "modules"]
  let agent ← Toml.fieldOr? fields "agent" AgentSettings.ofToml? {}
  let modules ← Toml.fieldOr? fields "modules" (Toml.list? ModuleSettings.ofToml?) []
  return { agent, modules }

end Rota
