/-!
# Civil dates

Days of the proleptic Gregorian calendar are counted from 1970-01-01, which is day `0`.

* `Date`             a year, a month and a day of the month;
* `Date.number`      the day number of a date;
* `Date.ofNumber`    the date of a day number;
* `monthLength`      the number of days of a month;
* `monthIndex`       months counted from January of year 0;
* `firstDay`, `lastDay`   the ends of the calendar: -262143-01-01 and +262142-12-31.

Years begin in March inside the two conversions, so that the leap day is the last of its year.
-/

namespace Rota.Calendar

/-- a date of the proleptic Gregorian calendar -/
structure Date where
  year : Int
  month : Nat
  day : Nat
deriving DecidableEq, Repr

def isLeapYear (year : Int) : Bool :=
  (year % 4 == 0 && year % 100 != 0) || year % 400 == 0

def monthLength (year : Int) (month : Nat) : Nat :=
  if month = 2 then (if isLeapYear year then 29 else 28)
  else if month = 4 ∨ month = 6 ∨ month = 9 ∨ month = 11 then 30
  else 31

def Date.isValid (d : Date) : Bool :=
  decide (1 ≤ d.month) && decide (d.month ≤ 12) && decide (1 ≤ d.day)
    && decide (d.day ≤ monthLength d.year d.month)

/-- days from 1970-01-01 to the date -/
def Date.number (d : Date) : Int :=
  let y : Int := if d.month ≤ 2 then d.year - 1 else d.year
  let m : Int := if d.month ≤ 2 then (d.month : Int) + 9 else (d.month : Int) - 3
  365 * y + y / 4 - y / 100 + y / 400 + (153 * m + 2) / 5 + (d.day : Int) - 1 - 719468

def Date.ofNumber (n : Int) : Date :=
  let z := n + 719468
  let era := z / 146097
  let doe := z % 146097
  let yoe := (doe - doe / 1460 + doe / 36524 - doe / 146096) / 365
  let doy := doe - (365 * yoe + yoe / 4 - yoe / 100)
  let m := (5 * doy + 2) / 153
  let day := doy - (153 * m + 2) / 5 + 1
  let month := if m < 10 then m + 3 else m - 9
  { year := yoe + era * 400 + (if month ≤ 2 then 1 else 0)
    month := month.toNat
    day := day.toNat }

/-- the number of a weekday from Sunday, which is `0`, for a day number -/
def weekdayNumber (n : Int) : Nat := ((n + 4) % 7).toNat

/-! ## months -/

/-- months counted from January of year 0 -/
def monthIndex (year : Int) (month : Nat) : Int := year * 12 + (month : Int) - 1

def yearOfIndex (index : Int) : Int := index / 12

def monthOfIndex (index : Int) : Nat := (index % 12).toNat + 1

/-- the day number of `day` in the month with this index, or of the month's last day if that is
earlier -/
def clampedDay (index : Int) (day : Nat) : Int :=
  let year := yearOfIndex index
  let month := monthOfIndex index
  Date.number ⟨year, month, min day (monthLength year month)⟩

/-! ## the ends of the calendar -/

def firstYear : Int := -262143
def lastYear : Int := 262142

def firstDay : Int := -96465292

def lastDay : Int := 95026236

def firstMonth : Int := -3145716

def lastMonth : Int := 3145715

theorem monthOfIndex_pos (index : Int) : 1 ≤ monthOfIndex index := Nat.succ_pos _

theorem monthOfIndex_le (index : Int) : monthOfIndex index ≤ 12 := by
  unfold monthOfIndex
  omega

end Rota.Calendar
