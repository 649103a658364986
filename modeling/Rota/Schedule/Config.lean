import Rota.Schedule.Interval
import Rota.Schedule.WeekdaySpec

/-!
# Schedules as they are configured

* `ScheduleConfig`   the fields of a schedule, each of which may be left out;
* `ScheduleDefaults` what stands in for a missing interval and a missing zone.

Nothing is checked here: times and zones are still texts.
-/

namespace Rota

structure ScheduleConfig where
  interval : Option Interval := none
  day : Option Nat := none
  wday : Option WeekdaySpec := none
  time : Option String := none
  runOnStart : Bool := false
  timezone : Option String := none
deriving DecidableEq, Repr

end Rota
