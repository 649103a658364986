import Rota.Schedule.Basic

/-!
# From a configuration to a schedule

A configured schedule is checked and completed.  A weekday makes it weekly, else a day of the month
makes it monthly, else a time makes it daily, else it is a plain interval.

* `ScheduleDefaults`         what stands in for a missing interval and a missing zone;
* `Adjustment`               an interval that had to be replaced to fit the policy;
* `ScheduleConfig.normalize` the schedule and the adjustments, or the first thing that is wrong.

The order of the checks decides which of several errors is told: the default interval, the weekday,
the day, the two together, the time, the zone, the length of the interval, and then what the policy
asks for.
-/

namespace Rota

variable [ZoneDatabase]

structure ScheduleDefaults where
  interval : Nat
  zone : Zone := .host
deriving DecidableEq

/-- notice that the configured interval was replaced by one that fits the policy -/
structure Adjustment where
  configured : Option Interval
  adjusted : Interval
deriving DecidableEq, Repr

/-- the period that the replaced interval has to be a multiple of -/
def Adjustment.period (a : Adjustment) : String :=
  match a.adjusted with
  | .seconds _ => "week"
  | .months _ => "month"

def Adjustment.message (a : Adjustment) : String :=
  "Interval must be a multiple of one " ++ a.period ++ ". New interval value: " ++ a.adjusted.text

structure Normalized where
  schedule : Schedule
  adjustments : List Adjustment
deriving DecidableEq

namespace ScheduleConfig

def check {α β : Type} (f : α → Except ScheduleError β) :
    Option α → Except ScheduleError (Option β)
  | none => .ok none
  | some a => (f a).map some

def checkDay (day : Nat) : Except ScheduleError Nat :=
  if 1 ≤ day ∧ day ≤ 31 then .ok day else .error (.invalidValue (.dayOutside day))

def checkLength : Option Interval → Except ScheduleError Unit
  | some (.seconds n) =>
    if Interval.longest < n then .error (.invalidValue (.overLongest n)) else .ok ()
  | _ => .ok ()

/-- the configured seconds, or the default when there are none; months are refused -/
def requestedSeconds (configured : Option Interval) (default : Nat) : Except ScheduleError Nat :=
  match configured with
  | some (.months _) => .error (.invalidValue .monthsWithoutDay)
  | some (.seconds n) => .ok (if 0 < n then n else default)
  | none => .ok default

/-- the least number of weeks, one at least, that is not shorter than so many seconds -/
def weeksFor (seconds : Nat) : Nat := max 1 ((seconds + (Interval.week - 1)) / Interval.week)

def adjustmentsTo (configured : Option Interval) (adjusted : Interval) : List Adjustment :=
  if configured = some adjusted then [] else [⟨configured, adjusted⟩]

def requestedMonths : Option Interval → Nat
  | some (.months n) => if 0 < n then n else 1
  | _ => 1

def cadence (configured : Option Interval) (default : Nat) (weekday : Option Weekday)
    (day : Option Nat) (time : Option TimeOfDay) :
    Except ScheduleError (Cadence × List Adjustment) :=
  match weekday, day, time with
  | some _, _, none => .error (.missingTime .weekly)
  | some weekday, _, some time => do
    let seconds ← requestedSeconds configured default
    let weeks := weeksFor seconds
    if weeks < UInt32.size then
      .ok (.weekly weekday time weeks,
        adjustmentsTo configured (.seconds (weeks * Interval.week)))
    else .error (.invalidValue .tooManyWeeks)
  | none, some _, none => .error (.missingTime .monthly)
  | none, some day, some time =>
    let months := requestedMonths configured
    .ok (.monthly day time months, adjustmentsTo configured (.months months))
  | none, none, time => do
    let seconds ← requestedSeconds configured default
    match time with
    | some time => .ok (.dailyTime time seconds, [])
    | none => .ok (.plainInterval seconds, [])

/-- the schedule that a configuration means -/
def normalize (config : ScheduleConfig) (defaults : ScheduleDefaults) :
    Except ScheduleError Normalized := do
  if defaults.interval = 0 ∨ Interval.longest < defaults.interval then
    throw (.invalidValue (.defaultOutside Interval.longest))
  let weekday ← check WeekdaySpec.resolve config.wday
  let day ← check checkDay config.day
  match weekday, day with
  | some weekday, some day => throw (.conflictingDays weekday day)
  | _, _ => pure ()
  let time ← check TimeOfDay.parse config.time
  let zone ← check Zone.parse config.timezone
  checkLength config.interval
  let (cadence, adjustments) ← cadence config.interval defaults.interval weekday day time
  return ⟨⟨cadence, config.runOnStart, zone.getD defaults.zone⟩, adjustments⟩

end ScheduleConfig

end Rota
