import Rota.Json.Decode
import Rota.Schedule.Config

/-!
# Configured schedules as JSON

* `Interval.ofJson`, `Interval.toJson`               seconds as a number, anything as a text;
* `WeekdaySpec.ofJson`, `WeekdaySpec.toJson`         a number or a text;
* `ScheduleConfig.ofJson`, `ScheduleConfig.toJson`   a record whose unset fields are left out.

The fields of a record are looked at in the order of their keys, so of two faults the one with the
smaller key is told.
-/

namespace Rota

/-- seconds, or a text that is read at once -/
def Interval.ofJson : Json → Except Json.Fault Interval
  | .str s =>
    match Interval.parse s with
    | .ok i => .ok i
    | .error e => .error (.content e)
  | j => (Json.shaped (Json.nat? Interval.secondsBound) j).map .seconds

def Interval.toJson (i : Interval) : Json := .str i.text

def WeekdaySpec.ofJson : Json → Except Json.Fault WeekdaySpec
  | .str s => .ok (.name s)
  | j => (Json.shaped (Json.nat? UInt32.size) j).map .number

def WeekdaySpec.toJson : WeekdaySpec → Json
  | .number n => .ofNat n
  | .name s => .str s

namespace ScheduleConfig

def keys : List String := ["interval", "day", "wday", "time", "run_on_start", "timezone"]

def ofJson (j : Json) : Except Json.Fault ScheduleConfig := do
  let fields ← Json.shaped (Json.fields? keys) j
  let day ← Json.optional "day" (Json.shaped (Json.nat? UInt32.size)) fields
  let interval ← Json.optional "interval" Interval.ofJson fields
  let runOnStart ← Json.orDefault "run_on_start" false (Json.shaped Json.bool?) fields
  let time ← Json.optional "time" (Json.shaped Json.str?) fields
  let timezone ← Json.optional "timezone" (Json.shaped Json.str?) fields
  let wday ← Json.optional "wday" WeekdaySpec.ofJson fields
  return { interval, day, wday, time, runOnStart, timezone }

def toJson (c : ScheduleConfig) : Json :=
  .obj <| Json.fieldOf "interval" Interval.toJson c.interval
    ++ Json.fieldOf "day" Json.ofNat c.day
    ++ Json.fieldOf "wday" WeekdaySpec.toJson c.wday
    ++ Json.fieldOf "time" Json.str c.time
    ++ [("run_on_start", .bool c.runOnStart)]
    ++ Json.fieldOf "timezone" Json.str c.timezone

end ScheduleConfig

end Rota
