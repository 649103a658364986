import Rota.Schedule.Config
import Rota.Text.Blank

/-!
# Settings

* `AgentSettings`     what concerns the agent as a whole;
* `ModuleKind`        what a module does;
* `ModuleSettings`    one module;
* `Settings`          all of it;
* `Settings.standard` the settings that hold without any file;
* `Settings.fault?`   the first thing that is wrong with the settings, schedules left aside.
-/

namespace Rota

open Text

structure AgentSettings where
  logLevel : String := "info"
  jsonLogs : Bool := false
  timezone : String := "local"
  /-- the longest single wait, in milliseconds -/
  wakeResolutionMs : Nat := 1000
  stateDir : Option String := none
  reportCapacity : Nat := 1024
  metricsPort : Option Nat := none
deriving DecidableEq, Repr

inductive ModuleKind where
  | command (program : String) (args : List String) (timeoutSeconds : Nat)
  | heartbeat
deriving DecidableEq, Repr

def ModuleKind.standardTimeout : Nat := 300

structure ModuleSettings where
  name : String
  enabled : Bool := true
  kind : ModuleKind
  defaultInterval : Interval := .seconds Interval.day
  schedule : ScheduleConfig := {}
deriving DecidableEq, Repr

structure Settings where
  agent : AgentSettings := {}
  modules : List ModuleSettings := []
deriving DecidableEq, Repr

def Settings.standard : Settings where
  modules :=
    [{ name := "heartbeat", kind := .heartbeat, defaultInterval := .seconds 60,
       schedule := { runOnStart := true } }]

/-! ## checks -/

inductive SettingsFault where
  | zeroReportCapacity
  | zeroWakeResolution
  | emptyName
  | duplicateName (name : String)
  | defaultInterval (name : String)
  | emptyCommand (name : String)
  | zeroTimeout (name : String)
deriving DecidableEq, Repr

def SettingsFault.message : SettingsFault → String
  | .zeroReportCapacity => "Agent report_capacity must be greater than 0"
  | .zeroWakeResolution => "Agent wake_resolution_ms must be greater than 0"
  | .emptyName => "Module name cannot be empty"
  | .duplicateName name => "Duplicate module name '" ++ name ++ "'"
  | .defaultInterval name =>
    "Module '" ++ name ++ "' default_interval must be a non-zero number of seconds"
  | .emptyCommand name => "Module '" ++ name ++ "' command cannot be empty"
  | .zeroTimeout name => "Module '" ++ name ++ "' timeout_seconds must be greater than 0"

def isEmptyText (s : String) : Bool := (trim s.toList).isEmpty

def ModuleKind.fault? (name : String) : ModuleKind → Option SettingsFault
  | .heartbeat => none
  | .command program _ timeoutSeconds =>
    if isEmptyText program then some (.emptyCommand name)
    else if timeoutSeconds = 0 then some (.zeroTimeout name)
    else none

/-- what is wrong with a module, when `earlier` are the names before it -/
def ModuleSettings.fault? (earlier : List String) (m : ModuleSettings) : Option SettingsFault :=
  if isEmptyText m.name then some .emptyName
  else if m.name ∈ earlier then some (.duplicateName m.name)
  else
    match m.defaultInterval with
    | .months _ => some (.defaultInterval m.name)
    | .seconds n => if n = 0 then some (.defaultInterval m.name) else m.kind.fault? m.name

def modulesFault? (earlier : List String) : List ModuleSettings → Option SettingsFault
  | [] => none
  | m :: ms =>
    match m.fault? earlier with
    | some f => some f
    | none => modulesFault? (m.name :: earlier) ms

/-- the first thing that is wrong with the settings; schedules are not looked at -/
def Settings.fault? (s : Settings) : Option SettingsFault :=
  if s.agent.reportCapacity = 0 then some .zeroReportCapacity
  else if s.agent.wakeResolutionMs = 0 then some .zeroWakeResolution
  else modulesFault? [] s.modules

end Rota
