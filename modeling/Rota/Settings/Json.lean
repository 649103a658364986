import Rota.Schedule.Json
import Rota.Settings.Basic

/-!
# Settings as JSON

* `ModuleSettings.ofJson`, `ModuleSettings.toJson`   a module; what it does is written among its
  other fields, under `kind`;
* `Settings.ofJson`, `Settings.toJson`               all settings.

Missing fields take their standard values.  A kind is named by its text or by its place in the list
of kinds.  That a module has no name is told only when nothing else is wrong with its fields.
-/

namespace Rota

def wordBound : Nat := UInt64.size

namespace AgentSettings

def keys : List String :=
  ["log_level", "json_logs", "timezone", "wake_resolution_ms", "state_dir", "report_capacity",
    "metrics_port"]

def ofJson (j : Json) : Except Json.Fault AgentSettings := do
  let fields ← Json.shaped (Json.fields? keys) j
  let jsonLogs ← Json.orDefault "json_logs" false (Json.shaped Json.bool?) fields
  let logLevel ← Json.orDefault "log_level" "info" (Json.shaped Json.str?) fields
  let metricsPort ← Json.optional "metrics_port" (Json.shaped (Json.nat? UInt16.size)) fields
  let reportCapacity ←
    Json.orDefault "report_capacity" 1024 (Json.shaped (Json.nat? wordBound)) fields
  let stateDir ← Json.optional "state_dir" (Json.shaped Json.str?) fields
  let timezone ← Json.orDefault "timezone" "local" (Json.shaped Json.str?) fields
  let wakeResolutionMs ←
    Json.orDefault "wake_resolution_ms" 1000 (Json.shaped (Json.nat? wordBound)) fields
  return { logLevel, jsonLogs, timezone, wakeResolutionMs, stateDir, reportCapacity, metricsPort }

def toJson (a : AgentSettings) : Json :=
  .obj
    [("log_level", .str a.logLevel), ("json_logs", .bool a.jsonLogs), ("timezone", .str a.timezone),
     ("wake_resolution_ms", .ofNat a.wakeResolutionMs), ("state_dir", .ofOption .str a.stateDir),
     ("report_capacity", .ofNat a.reportCapacity), ("metrics_port", .ofOption .ofNat a.metricsPort)]

end AgentSettings

namespace ModuleKind

/-- whether a kind is written as `name` or by its `place` in the list of kinds -/
def isNamed (name : String) (place : Nat) : Json → Bool
  | .str s => s == name
  | .int n => n == (place : Int)
  | _ => false

def ofFields (fields : List (String × Json)) : Except Json.Fault ModuleKind := do
  let kind ← Json.required "kind" .ok fields
  if isNamed "command" 0 kind then
    let args ← Json.orDefault "args" [] (Json.list (Json.shaped Json.str?)) fields
    let program ← Json.required "command" (Json.shaped Json.str?) fields
    let timeout ←
      Json.orDefault "timeout_seconds" standardTimeout (Json.shaped (Json.nat? wordBound)) fields
    return .command program args timeout
  else if isNamed "heartbeat" 1 kind then return .heartbeat
  else throw .shape

def toFields : ModuleKind → List (String × Json)
  | .command program args timeout =>
    [("kind", .str "command"), ("command", .str program), ("args", .arr (args.map .str)),
     ("timeout_seconds", .ofNat timeout)]
  | .heartbeat => [("kind", .str "heartbeat")]

end ModuleKind

namespace ModuleSettings

def objectFields? : Json → Option (List (String × Json))
  | .obj fields => some fields
  | _ => none

def ofJson (j : Json) : Except Json.Fault ModuleSettings := do
  let fields ← Json.shaped objectFields? j
  let defaultInterval ←
    Json.orDefault "default_interval" (.seconds Interval.day) Interval.ofJson fields
  let enabled ← Json.orDefault "enabled" true (Json.shaped Json.bool?) fields
  let name ← Json.present "name" (Json.shaped Json.str?) fields
  let schedule ← Json.orDefault "schedule" {} ScheduleConfig.ofJson fields
  let kind ← ModuleKind.ofFields fields
  match name with
  | some name => return { name, enabled, kind, defaultInterval, schedule }
  | none => throw .shape

def toJson (m : ModuleSettings) : Json :=
  .obj <| [("name", .str m.name), ("enabled", .bool m.enabled)] ++ m.kind.toFields
    ++ [("default_interval", m.defaultInterval.toJson), ("schedule", m.schedule.toJson)]

end ModuleSettings

namespace Settings

def keys : List String := ["agent", "modules"]

def ofJson (j : Json) : Except Json.Fault Settings := do
  let fields ← Json.shaped (Json.fields? keys) j
  let agent ← Json.orDefault "agent" {} AgentSettings.ofJson fields
  let modules ← Json.orDefault "modules" [] (Json.list ModuleSettings.ofJson) fields
  return { agent, modules }

def toJson (s : Settings) : Json :=
  .obj [("agent", s.agent.toJson), ("modules", .arr (s.modules.map ModuleSettings.toJson))]

end Settings

end Rota
