import Rota.Schedule.Config
import Rota.Schedule.TimeOfDay
import Rota.Zone.Basic

/-!
# Schedules

* `Cadence`                when a module is due, one constructor for each policy;
* `Schedule`               a cadence in a zone, and whether a run comes first at the start;
* `Schedule.interval`      the interval that is in effect;
* `Schedule.text`          a description in words;
* `Cadence.fingerprint`, `Schedule.fingerprint`   a text that tells schedules apart;
* `Schedule.toConfig`      the schedule as it would be configured.
-/

namespace Rota

/-- when a module is due -/
inductive Cadence where
  | weekly (weekday : Weekday) (time : TimeOfDay) (weeks : Nat)
  /-- every so many months on a day of the month at a time; short months end before that day and
  take their last day -/
  | monthly (day : Nat) (time : TimeOfDay) (months : Nat)
  /-- every day at a time; the seconds are shown and do nothing -/
  | dailyTime (time : TimeOfDay) (seconds : Nat)
  | plainInterval (seconds : Nat)
deriving DecidableEq, Repr

namespace Cadence

def policy : Cadence → Policy
  | .weekly .. => .weekly
  | .monthly .. => .monthly
  | .dailyTime .. => .dailyTime
  | .plainInterval .. => .plainInterval

def interval : Cadence → Interval
  | .weekly _ _ weeks => .seconds (weeks * Interval.week)
  | .monthly _ _ months => .months months
  | .dailyTime _ seconds => .seconds seconds
  | .plainInterval seconds => .seconds seconds

def weekday? : Cadence → Option Weekday
  | .weekly weekday _ _ => some weekday
  | _ => none

def day? : Cadence → Option Nat
  | .monthly day _ _ => some day
  | _ => none

def time? : Cadence → Option TimeOfDay
  | .weekly _ time _ => some time
  | .monthly _ time _ => some time
  | .dailyTime time _ => some time
  | .plainInterval _ => none

def text : Cadence → String
  | .weekly weekday time weeks =>
    "every " ++ toString weeks ++ " week(s) on " ++ weekday.name ++ " at " ++ time.text
  | .monthly day time months =>
    "every " ++ toString months ++ " month(s) on day " ++ toString day ++ " at " ++ time.text
  | .dailyTime time _ => "daily at " ++ time.text
  | .plainInterval seconds => "every " ++ (Interval.seconds seconds).text

def orDash : Option String → String
  | some s => s
  | none => "-"

/-- policy, interval, weekday, day and time of the cadence and the name of a zone, parted by bars -/
def fingerprint (c : Cadence) (zone : String) : String :=
  String.intercalate "|"
    [c.policy.name, c.interval.text, orDash (c.weekday?.map Weekday.name),
      orDash (c.day?.map toString), orDash (c.time?.map TimeOfDay.text), zone]

end Cadence

variable [ZoneDatabase]

structure Schedule where
  cadence : Cadence
  runOnStart : Bool
  zone : Zone
deriving DecidableEq

namespace Schedule

def policy (s : Schedule) : Policy := s.cadence.policy

def interval (s : Schedule) : Interval := s.cadence.interval

def text (s : Schedule) : String := s.cadence.text ++ " (" ++ s.zone.text ++ ")"

/-- the fingerprint of the cadence in the zone -/
def fingerprint (s : Schedule) : String := s.cadence.fingerprint s.zone.text

def toConfig (s : Schedule) : ScheduleConfig where
  interval := some s.interval
  day := s.cadence.day?
  wday := s.cadence.weekday?.map WeekdaySpec.ofWeekday
  time := s.cadence.time?.map TimeOfDay.text
  runOnStart := s.runOnStart
  timezone := some s.zone.text

end Schedule

end Rota
