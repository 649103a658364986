import Rota.Schedule.Policy
import Rota.Schedule.Weekday
import Rota.Text.Numeral

/-!
# What can be wrong with a schedule

* `ValueFault`      a field whose value cannot be used, and why;
* `ScheduleError`   the ways in which a schedule is refused;
* `message`         the wording, in one place.

Each fault belongs to one field of the configuration (`ValueFault.field`).
-/

namespace Rota

inductive ValueFault where
  | noNumber (raw : String)
  | tooLarge (raw : String)
  | noMonths
  | unknownUnit (unit : String)
  | overLongest (seconds : Nat)
  | monthsWithoutDay
  | tooManyWeeks
  | defaultOutside (longest : Nat)
  | defaultInMonths
  | notTime (raw : String)
  | notWeekday (raw : String)
  | weekdayOutside (n : Nat)
  | dayOutside (n : Nat)
  | unknownZone (name : String)
  | alreadyScheduled (name : String)
deriving DecidableEq, Repr

namespace ValueFault

/-- the field that the fault belongs to -/
def field : ValueFault → String
  | .noNumber _ | .tooLarge _ | .noMonths | .unknownUnit _ | .overLongest _ | .monthsWithoutDay
  | .tooManyWeeks => "interval"
  | .defaultOutside _ | .defaultInMonths => "default_interval"
  | .notTime _ => "time"
  | .notWeekday _ | .weekdayOutside _ => "wday"
  | .dayOutside _ => "day"
  | .unknownZone _ => "timezone"
  | .alreadyScheduled _ => "name"

def reason : ValueFault → String
  | .noNumber raw => "'" ++ raw ++ "' does not start with a number"
  | .tooLarge raw => "'" ++ raw ++ "' is out of range"
  | .noMonths => "month count must be at least 1"
  | .unknownUnit unit => "unknown unit '" ++ unit ++ "' (expected s, m, h, d, w or M)"
  | .overLongest seconds => toString seconds ++ " seconds exceeds the maximum interval"
  | .monthsWithoutDay => "a month interval requires 'day' to be set"
  | .tooManyWeeks => "too many weeks"
  | .defaultOutside longest => "must be between 1 and " ++ toString longest ++ " seconds"
  | .defaultInMonths => "must be a number of seconds, not months"
  | .notTime raw => "'" ++ raw ++ "' is not a valid HH:MM time"
  | .notWeekday raw => "'" ++ raw ++ "' is not a day of the week"
  | .weekdayOutside n => toString n ++ " is outside 0-6"
  | .dayOutside n => toString n ++ " is outside 1-31"
  | .unknownZone name => "unknown time zone '" ++ name ++ "'"
  | .alreadyScheduled name => "module '" ++ name ++ "' is already scheduled"

end ValueFault

inductive ScheduleError where
  | conflictingDays (weekday : Weekday) (day : Nat)
  | missingTime (policy : Policy)
  | invalidValue (fault : ValueFault)
deriving DecidableEq, Repr

def ScheduleError.message : ScheduleError → String
  | .conflictingDays weekday day =>
    "only one of weekday/day may be set (wday: " ++ weekday.name ++ ", day: " ++ toString day ++ ")"
  | .missingTime policy => "Missing required field 'time' for " ++ policy.name ++ " schedule"
  | .invalidValue fault => "Invalid value for '" ++ fault.field ++ "': " ++ fault.reason

end Rota
