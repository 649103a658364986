import Rota.Calendar.Moment
import Rota.Schedule.Basic

/-!
# Slots

A slot is a moment at which a module is due.  Times of day are read on the wall clock of the
schedule's zone; slots are moments.  Nothing here reads a clock: the caller says what time it is.

* `ZoneClock.resolve`      the moment at which a local day shows a time of day;
* `Cadence.first`          the first slot after a moment;
* `Cadence.step`           the slot one period after another;
* `Cadence.following`      the slot after a firing, past the slots that were missed;
* `Cadence.next`, `Cadence.nextAfter`   the time of the run that comes next; a slot that the
  calendar does not hold is `Moment.last`, which means never;
* `Cadence.chain`          the slots of firings that follow each other;
* `Schedule.next`, `Schedule.initial`, `Schedule.nextAfter`, `Schedule.chain`   the same in the
  zone of a schedule.

A wall clock can leave the calendar where the moment does not.  That is a fault of its own
(`SlotFault.wallClock`) and no answer.
-/

namespace Rota

inductive SlotFault where
  | beyondCalendar
  | wallClock
  | unending
deriving DecidableEq, Repr

/-! ## local time -/

namespace ZoneClock

def localNanos (z : ZoneClock) (m : Moment) : Int :=
  m.nanos + z.offset m.seconds * nanosPerSecond

def localDay (z : ZoneClock) (m : Moment) : Except SlotFault Int :=
  let n := z.localNanos m
  if Calendar.firstNano ≤ n ∧ n ≤ Calendar.lastNano then
    .ok (n / (secondsPerDay * nanosPerSecond))
  else .error .wallClock

/-- a reading that the wall clock skips is moved on by this many seconds at a time -/
def gapStep : Int := 900

def gapTries : Nat := 96

/-- the moment of a reading: the earliest one that shows it; if none does, the reading is moved on,
and when the tries are used up it is taken as UTC -/
def momentOf (z : ZoneClock) : Nat → Int → Except SlotFault Moment
  | 0, w =>
    match Moment.ofSeconds? w with
    | some m => .ok m
    | none => .error .wallClock
  | tries + 1, w =>
    match (z.earliest? w).bind Moment.ofSeconds? with
    | some m => .ok m
    | none =>
      if w + gapStep ≤ Calendar.lastSecond then momentOf z tries (w + gapStep)
      else .error .wallClock

/-- the moment at which the day with this number shows the time -/
def resolve (z : ZoneClock) (day : Int) (time : TimeOfDay) : Except SlotFault Moment :=
  z.momentOf gapTries (day * secondsPerDay + time.seconds)

end ZoneClock

/-! ## the first slot after a moment -/

/-- the first slot after `now` on the days `day`, `day + stride`, … -/
def firstOnDays (z : ZoneClock) (time : TimeOfDay) (now : Moment) (stride : Nat) (day : Int) :
    Except SlotFault Moment :=
  if _h : day ≤ Calendar.lastDay ∧ 0 < stride then
    match z.resolve day time with
    | .error e => .error e
    | .ok slot => if now < slot then .ok slot else firstOnDays z time now stride (day + stride)
  else .error .beyondCalendar
termination_by (Calendar.lastDay + 1 - day).toNat

def firstInMonths (z : ZoneClock) (time : TimeOfDay) (now : Moment) (day : Nat) (index : Int) :
    Except SlotFault Moment :=
  if _h : Calendar.firstMonth ≤ index ∧ index ≤ Calendar.lastMonth then
    match z.resolve (Calendar.clampedDay index day) time with
    | .error e => .error e
    | .ok slot => if now < slot then .ok slot else firstInMonths z time now day (index + 1)
  else .error .beyondCalendar
termination_by (Calendar.lastMonth + 1 - index).toNat

def monthOfDay (day : Int) : Int :=
  let d := Calendar.Date.ofNumber day
  Calendar.monthIndex d.year d.month

/-- the days from a day to the next one on a weekday, none if it is on that weekday -/
def daysAhead (weekday : Weekday) (day : Int) : Nat :=
  (weekday.number + 7 - Calendar.weekdayNumber day) % 7

/-- the days back from a day to the last one on a weekday, none if it is on that weekday -/
def daysBack (weekday : Weekday) (day : Int) : Nat :=
  (Calendar.weekdayNumber day + 7 - weekday.number) % 7

def inCalendar : Option Moment → Except SlotFault Moment
  | some m => .ok m
  | none => .error .beyondCalendar

namespace Cadence

def first (z : ZoneClock) (c : Cadence) (now : Moment) : Except SlotFault Moment := do
  let today ← z.localDay now
  match c with
  | .plainInterval seconds => inCalendar (now.addSeconds? seconds)
  | .dailyTime time _ => firstOnDays z time now 1 today
  | .weekly weekday time _ => firstOnDays z time now 7 (today + daysAhead weekday today)
  | .monthly day time _ => firstInMonths z time now day (monthOfDay today)

/-! ## the slot after a slot -/

def onDay (z : ZoneClock) (time : TimeOfDay) (day : Int) : Except SlotFault Moment :=
  if Calendar.firstDay ≤ day ∧ day ≤ Calendar.lastDay then z.resolve day time
  else .error .beyondCalendar

/-- the slot one period after `slot`.  A weekly slot may have been moved past midnight: its day is
first taken back to the weekday. -/
def step (z : ZoneClock) (c : Cadence) (slot : Moment) : Except SlotFault Moment := do
  let date ← z.localDay slot
  match c with
  | .plainInterval seconds => inCalendar (slot.addSeconds? seconds)
  | .dailyTime time _ => onDay z time (date + 1)
  | .weekly weekday time weeks =>
    let aligned := date - daysBack weekday date
    if Calendar.firstDay ≤ aligned then onDay z time (aligned + 7 * weeks)
    else .error .beyondCalendar
  | .monthly day time months =>
    let index := monthOfDay date + months
    if Calendar.firstMonth ≤ index ∧ index ≤ Calendar.lastMonth then
      z.resolve (Calendar.clampedDay index day) time
    else .error .beyondCalendar

end Cadence

/-! ## the slot after a firing -/

inductive Trigger where
  | startup
  | scheduled
deriving DecidableEq, Repr

def Trigger.name : Trigger → String
  | .startup => "startup"
  | .scheduled => "scheduled"

/-- one run of a module, as the search for the next slot needs it -/
structure Firing where
  scheduled : Moment
  started : Moment
  trigger : Trigger
deriving DecidableEq

namespace Cadence

/-- steps on while a slot is due at `now` and was due when the run started -/
def catchUp (z : ZoneClock) (c : Cadence) (started now : Moment) :
    Nat → Moment → Except SlotFault Moment
  | 0, _ => .error .unending
  | fuel + 1, slot =>
    if slot ≤ now ∧ slot ≤ started then
      match c.step z slot with
      | .ok next => catchUp z c started now fuel next
      | .error e => .error e
    else .ok slot

/-- more steps than the calendar has days -/
def catchUpFuel : Nat := 200000000

/-- the slot of a plain interval after a firing, without stepping: whole periods that ended before
the run started are left out at once -/
def followingPlain (seconds : Nat) (last : Firing) : Except SlotFault Moment := do
  let candidate ← inCalendar (last.scheduled.addSeconds? seconds)
  if candidate ≤ last.started then
    let behind := (last.started.nanos - candidate.nanos) / nanosPerSecond
    inCalendar (candidate.addSeconds? ((behind / (seconds : Int) + 1) * (seconds : Int)))
  else .ok candidate

def following (z : ZoneClock) (c : Cadence) (last : Firing) (now : Moment) :
    Except SlotFault Moment :=
  match c with
  | .plainInterval seconds => followingPlain seconds last
  | _ =>
    match c.step z last.scheduled with
    | .ok slot => catchUp z c last.started now catchUpFuel slot
    | .error e => .error e

end Cadence

/-! ## the time of a run -/

/-- a slot beyond the calendar never comes -/
def orNever : Except SlotFault Moment → Except SlotFault Moment
  | .error .beyondCalendar => .ok Moment.last
  | r => r

def later (m : Moment) (s : Int) : Except SlotFault Moment :=
  match m.addSeconds? s with
  | some n => .ok n
  | none => .error .wallClock

namespace Cadence

/-- the time of the next run after `now` -/
def next (z : ZoneClock) (c : Cadence) (now : Moment) : Except SlotFault Moment :=
  orNever (c.first z now)

def nextAfter (z : ZoneClock) (c : Cadence) (last : Firing) (now : Moment) :
    Except SlotFault Moment :=
  match last.trigger with
  | .startup => c.next z now
  | .scheduled => orNever (c.following z last now)

/-- `count` slots from `slot` on, when every run starts `late` seconds after its slot and takes
`run` seconds -/
def chain (z : ZoneClock) (c : Cadence) (late run : Int) (slot : Moment) :
    Nat → Except SlotFault (List Moment)
  | 0 => .ok []
  | 1 => .ok [slot]
  | count + 1 => do
    let started ← later slot late
    let next ← c.nextAfter z ⟨slot, started, .scheduled⟩ (← later started run)
    return slot :: (← c.chain z late run next count)

end Cadence

/-! ## schedules -/

variable [ZoneDatabase]

namespace Schedule

def next (s : Schedule) (now : Moment) : Except SlotFault Moment :=
  s.cadence.next s.zone.clock now

def initialIn (z : ZoneClock) (s : Schedule) (now : Moment) : Except SlotFault Moment :=
  if s.runOnStart then .ok now else s.cadence.next z now

def initial (s : Schedule) (now : Moment) : Except SlotFault Moment :=
  s.initialIn s.zone.clock now

def nextAfter (s : Schedule) (last : Firing) (now : Moment) : Except SlotFault Moment :=
  s.cadence.nextAfter s.zone.clock last now

def chain (s : Schedule) (late run : Int) (slot : Moment) (count : Nat) :
    Except SlotFault (List Moment) :=
  s.cadence.chain s.zone.clock late run slot count

end Schedule

end Rota
