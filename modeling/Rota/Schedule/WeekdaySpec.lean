import Rota.Schedule.Error
import Rota.Text.Blank

/-!
# Weekdays as they are configured

A weekday is configured by its number (Sunday is 0) or by a text: an English name, its first three
letters, or a number.  ASCII case and blanks at the ends do not count.

* `Weekday.parse`         the weekday of a text;
* `WeekdaySpec.resolve`   the weekday that a specification means.
-/

namespace Rota

open Text

def Weekday.ofNumber (n : Nat) : Except ScheduleError Weekday :=
  match Weekday.ofNumber? n with
  | some d => .ok d
  | none => .error (.invalidValue (.weekdayOutside n))

/-- a number below `2^32` is looked up as such, all else as a name -/
def Weekday.parse (raw : String) : Except ScheduleError Weekday :=
  let cs := (trim raw.toList).map Char.toLower
  match Numeral.unsigned? UInt32.size cs with
  | some n => Weekday.ofNumber n
  | none =>
    match Weekday.ofName? cs with
    | some d => .ok d
    | none => .error (.invalidValue (.notWeekday raw))

inductive WeekdaySpec where
  | number (n : Nat)
  | name (text : String)
deriving DecidableEq, Repr

namespace WeekdaySpec

def resolve : WeekdaySpec → Except ScheduleError Weekday
  | .number n => Weekday.ofNumber n
  | .name text => Weekday.parse text

def text : WeekdaySpec → String
  | .number n => toString n
  | .name text => text

def ofWeekday (d : Weekday) : WeekdaySpec := .name d.name

end WeekdaySpec

end Rota
