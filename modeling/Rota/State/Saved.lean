import Rota.Calendar.Json
import Rota.Json.Reader
import Rota.Json.Writer
import Rota.Schedule.Slot

/-!
# Saved state

What is kept of a module between two lives of the agent.

* `SavedState`          the schedule it belongs to, the next run, and the start of the last one;
* `SavedState.text`     the text of a state file, and `SavedState.ofText` the way back;
* `Schedule.restore?`   the saved next run, if it still holds.

A saved next run holds for the same schedule only, while it lies ahead, and no further ahead than
the next slot of the schedule.
-/

namespace Rota

open Text

structure SavedState where
  /-- the fingerprint of the schedule that the next run was computed for -/
  fingerprint : String
  nextRun : Stamp
  lastRun : Option Stamp := none
deriving DecidableEq

namespace SavedState

def keys : List String := ["fingerprint", "next_run_time", "last_run"]

def ofFields (fields : List (String × Json)) : Except Json.Fault SavedState := do
  let fingerprint ← Json.required "fingerprint" (Json.shaped Json.str?) fields
  let lastRun ← Json.optional "last_run" Stamp.ofJson fields
  let nextRun ← Json.required "next_run_time" Stamp.ofJson fields
  return { fingerprint, nextRun, lastRun }

def ofJson (j : Json) : Except Json.Fault SavedState := do
  ofFields (← Json.shaped (Json.fields? keys) j)

def toFields (s : SavedState) : List (String × Json) :=
  [("fingerprint", .str s.fingerprint), ("next_run_time", s.nextRun.toJson),
   ("last_run", .ofOption Stamp.toJson s.lastRun)]

def toJson (s : SavedState) : Json := .obj s.toFields

def text (s : SavedState) : String := String.ofList (Json.record s.toFields)

/-- the state of a state file's text; a known key must not stand twice -/
def ofText (text : String) : Except Json.Fault SavedState := do
  let j ← match Json.parseRecord? keys text with
    | some j => pure j
    | none => throw .shape
  let fields ← Json.shaped (Json.fields? keys) j
  if Json.distinct keys fields then ofFields fields else throw .shape

def bytes (s : SavedState) : List UInt8 := Utf8.encode s.text

def ofBytes (bytes : List UInt8) : Except Json.Fault SavedState := ofText (Json.textOf bytes)

end SavedState

variable [ZoneDatabase]

/-- the saved next run, if it still holds at `now` by the clock of a zone -/
def Schedule.restoreIn? (z : ZoneClock) (s : Schedule) (saved : Option SavedState)
    (now : Moment) : Except SlotFault (Option Stamp) :=
  match saved with
  | none => .ok none
  | some saved =>
    if saved.fingerprint = s.fingerprint ∧ saved.nextRun.isAfter now then
      match s.cadence.next z now with
      | .ok next => .ok (if saved.nextRun.isAfter next then none else some saved.nextRun)
      | .error e => .error e
    else .ok none

def Schedule.restore? (s : Schedule) (saved : Option SavedState) (now : Moment) :
    Except SlotFault (Option Stamp) :=
  s.restoreIn? s.zone.clock saved now

end Rota
