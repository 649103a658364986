import Rota.Schedule.Error
import Rota.Text.Blank

/-!
# Intervals

An interval is a number of seconds or a number of calendar months.

* `Interval.parse`   from a text such as `90`, `30s`, `10m`, `2h`, `1d`, `1w` or `3M`;
* `Interval.text`    with the largest unit that divides the interval.

Seconds are below `2^64` and months below `2^32`.  Reading never wraps: a text whose count does not
fit is refused.
-/

namespace Rota

open Text

inductive Interval where
  | seconds (n : Nat)
  | months (n : Nat)
deriving DecidableEq, Repr

namespace Interval

/-! ## units -/

def minute : Nat := 60
def hour : Nat := 3600
def day : Nat := 86400
def week : Nat := 604800

/-- the longest interval that schedules accept, in seconds: a hundred years of 365 days -/
def longest : Nat := 3153600000

def secondsBound : Nat := UInt64.size

def monthsBound : Nat := UInt32.size

def unitSeconds? (unit : List Char) : Option Nat :=
  if unit = [] ∨ unit = ['s'] then some 1
  else if unit = ['m'] then some minute
  else if unit = ['h'] then some hour
  else if unit = ['d'] then some day
  else if unit = ['w'] then some week
  else none

def asSeconds? : Interval → Option Nat
  | .seconds n => some n
  | .months _ => none

/-! ## reading -/

/-- the interval of a numeral and its unit; `raw` is the text of both -/
def ofParts (raw : String) (digits unit : List Char) : Except ScheduleError Interval :=
  if digits = [] then .error (.invalidValue (.noNumber raw))
  else
    match Numeral.below? secondsBound digits with
    | none => .error (.invalidValue (.tooLarge raw))
    | some n =>
      if unit = ['M'] then
        if monthsBound ≤ n then .error (.invalidValue (.tooLarge raw))
        else if n = 0 then .error (.invalidValue .noMonths)
        else .ok (.months n)
      else
        match unitSeconds? unit with
        | none => .error (.invalidValue (.unknownUnit (String.ofList unit)))
        | some scale =>
          if n * scale < secondsBound then .ok (.seconds (n * scale))
          else .error (.invalidValue (.tooLarge raw))

def parse (raw : String) : Except ScheduleError Interval :=
  let cs := trim raw.toList
  let parts := Numeral.split cs
  ofParts (String.ofList cs) parts.1 parts.2

/-! ## writing -/

/-- the interval with the largest unit that divides it; no seconds are `0s` -/
def chars : Interval → List Char
  | .months n => Numeral.text n ++ ['M']
  | .seconds n =>
    if n = 0 then ['0', 's']
    else if n % week = 0 then Numeral.text (n / week) ++ ['w']
    else if n % day = 0 then Numeral.text (n / day) ++ ['d']
    else if n % hour = 0 then Numeral.text (n / hour) ++ ['h']
    else if n % minute = 0 then Numeral.text (n / minute) ++ ['m']
    else Numeral.text n ++ ['s']

def text (i : Interval) : String := String.ofList i.chars

end Interval

end Rota
