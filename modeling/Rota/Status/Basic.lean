import Rota.Calendar.Json
import Rota.Schedule.Basic

/-!
# The status of a module

* `RunnerState`      whether a module waits, runs, or has stopped;
* `RunStatistics`    counters and the last run;
* `ScheduleView`     a schedule as status answers show it;
* `ModuleStatus`     all of it.

The fields of every object are written in the order of their keys, so that a status has one text.
-/

namespace Rota

inductive RunnerState where
  | idle
  | running
  | stopped
deriving DecidableEq, Repr

def RunnerState.name : RunnerState → String
  | .idle => "idle"
  | .running => "running"
  | .stopped => "stopped"

structure RunStatistics where
  runs : Nat := 0
  failures : Nat := 0
  lastStarted : Option Stamp := none
  lastFinished : Option Stamp := none
  lastDurationMs : Option Nat := none
  lastError : Option String := none
deriving DecidableEq

def RunStatistics.toJson (s : RunStatistics) : Json :=
  .obj
    [("failures", .ofNat s.failures), ("last_duration_ms", .ofOption .ofNat s.lastDurationMs),
     ("last_error", .ofOption .str s.lastError),
     ("last_run_finished", .ofOption Stamp.toJson s.lastFinished),
     ("last_run_started", .ofOption Stamp.toJson s.lastStarted), ("runs", .ofNat s.runs)]

/-- a schedule as status answers show it -/
structure ScheduleView where
  policy : Policy
  interval : Interval
  weekday : Option Weekday
  day : Option Nat
  time : Option TimeOfDay
  runOnStart : Bool
  timezone : String
  description : String
deriving DecidableEq, Repr

def Schedule.view [ZoneDatabase] (s : Schedule) : ScheduleView where
  policy := s.policy
  interval := s.interval
  weekday := s.cadence.weekday?
  day := s.cadence.day?
  time := s.cadence.time?
  runOnStart := s.runOnStart
  timezone := s.zone.text
  description := s.text

def ScheduleView.toJson (v : ScheduleView) : Json :=
  .obj
    [("day", .ofOption .ofNat v.day), ("description", .str v.description),
     ("interval", .str v.interval.text), ("interval_seconds", .ofOption .ofNat v.interval.asSeconds?),
     ("policy", .str v.policy.name), ("run_on_start", .bool v.runOnStart),
     ("time", .ofOption (fun t => .str t.text) v.time), ("timezone", .str v.timezone),
     ("wday", .ofOption (fun d => .str d.name) v.weekday)]

structure ModuleStatus where
  module : String
  schedule : ScheduleView
  state : RunnerState := .idle
  nextRun : Option Stamp := none
  stats : RunStatistics := {}
deriving DecidableEq

def ModuleStatus.fresh [ZoneDatabase] (module : String) (schedule : Schedule) : ModuleStatus where
  module := module
  schedule := schedule.view

def ModuleStatus.toJson (s : ModuleStatus) : Json :=
  .obj
    [("module", .str s.module), ("next_run_time", .ofOption Stamp.toJson s.nextRun),
     ("schedule", s.schedule.toJson), ("state", .str s.state.name), ("stats", s.stats.toJson)]

end Rota
