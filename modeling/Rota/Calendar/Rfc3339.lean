import Rota.Calendar.Stamp
import Rota.Text.Blank
import Rota.Text.Numeral

/-!
# Moments as RFC 3339 text

Written moments are in UTC: `2024-03-10T07:00:00Z`.  The fraction has the fewest of 0, 3, 6 and 9
digits that is exact.  Years outside 0 to 9999 have a sign and at least four digits.

Reading is more generous than writing.  Blanks may stand before each number and each separator,
the date and the time may be parted by a `T` of either case or by a space, numbers may have fewer
digits than they are written with, a fraction may have any number of digits (those after the ninth
do not count), and the offset is `Z`, `UTC`, or a signed `HH:MM`.  The second 60 is a leap second.

* `Stamp.text`, `Moment.text`     the written form;
* `Stamp.read?`, `Moment.read?`   the stamp of a text, and its moment.
-/

namespace Rota

open Text

namespace Rfc3339

/-! ## writing -/

def yearText (year : Int) : List Char :=
  if 0 ≤ year ∧ year ≤ 9999 then Numeral.padded 4 year.toNat
  else (if year < 0 then '-' else '+') :: Numeral.padded 4 year.natAbs

/-- the fraction of a second, with the fewest of 0, 3, 6 and 9 digits that is exact -/
def fractionText (nanos : Nat) : List Char :=
  if nanos = 0 then []
  else if nanos % 1000000 = 0 then '.' :: Numeral.padded 3 (nanos / 1000000)
  else if nanos % 1000 = 0 then '.' :: Numeral.padded 6 (nanos / 1000)
  else '.' :: Numeral.padded 9 nanos

def dateText (d : Calendar.Date) : List Char :=
  yearText d.year ++ '-' :: Numeral.padded 2 d.month ++ '-' :: Numeral.padded 2 d.day

def clockText (s leap : Nat) : List Char :=
  Numeral.padded 2 (s / 3600) ++ ':' :: Numeral.padded 2 (s / 60 % 60)
    ++ ':' :: Numeral.padded 2 (s % 60 + leap)

/-! ## reading -/

def number? (width : Nat) (cs : List Char) : Option (Nat × List Char) :=
  let cs := trimStart cs
  let ds := (cs.take width).takeWhile Char.isDigit
  if ds.isEmpty then none else some (Numeral.value ds, cs.drop ds.length)

/-- a year: at most four digits, or a sign and any number of digits -/
def year? (cs : List Char) : Option (Int × List Char) :=
  match trimStart cs with
  | '-' :: r => signed r (fun n => -n)
  | '+' :: r => signed r id
  | cs => (number? 4 cs).map fun p => ((p.1 : Int), p.2)
where
  signed (cs : List Char) (sign : Int → Int) : Option (Int × List Char) :=
    let parts := Numeral.split cs
    if parts.1.isEmpty then none else some (sign (Numeral.value parts.1), parts.2)

def separator? (c : Char) (cs : List Char) : Option (List Char) :=
  match trimStart cs with
  | d :: r => if d = c then some r else none
  | [] => none

def between? : List Char → Option (List Char)
  | c :: r => if c = 'T' ∨ c = 't' ∨ c = ' ' then some r else none
  | [] => none

def fraction? : List Char → Option (Nat × List Char)
  | '.' :: r =>
    let parts := Numeral.split r
    if parts.1.isEmpty then none
    else
      let ds := parts.1.take 9
      some (Numeral.value ds * Nat.pow 10 (9 - ds.length), parts.2)
  | cs => some (0, cs)

def twoDigits? : List Char → Option (Nat × List Char)
  | a :: b :: r => if a.isDigit && b.isDigit then some (Numeral.value [a, b], r) else none
  | _ => none

def offsetSize? (cs : List Char) : Option (Int × List Char) := do
  let (h, cs) ← twoDigits? cs
  let (m, cs) ← twoDigits? (cs.dropWhile fun c => c = ':' || isBlank c)
  if m < 60 ∧ h < 24 then some ((h : Int) * 3600 + (m : Int) * 60, cs) else none

def offset? (cs : List Char) : Option (Int × List Char) :=
  match trimStart cs with
  | 'Z' :: r => some (0, r)
  | 'z' :: r => some (0, r)
  | '+' :: r => offsetSize? r
  | '-' :: r => (offsetSize? r).map fun p => (-p.1, p.2)
  | '\u2212' :: r => (offsetSize? r).map fun p => (-p.1, p.2)
  | u :: t :: c :: r =>
    if [u, t, c].map Char.toUpper = ['U', 'T', 'C'] then some (0, r) else none
  | _ => none

/-- the second of the minute that a number shows, and whether it is the one before the leap second
that the number shows -/
def second? (n : Nat) : Option (Nat × Bool) :=
  if n < 60 then some (n, false) else if n = 60 then some (59, true) else none

/-- the nanoseconds of a text that shows a date, a time and an offset, and whether a leap second has
to be added -/
def nanos? (cs : List Char) : Option (Int × Bool) := do
  let (year, cs) ← year? cs
  let cs ← separator? '-' cs
  let (month, cs) ← number? 2 cs
  let cs ← separator? '-' cs
  let (day, cs) ← number? 2 cs
  let cs ← between? cs
  let (hour, cs) ← number? 2 cs
  let cs ← separator? ':' cs
  let (minute, cs) ← number? 2 cs
  let cs ← separator? ':' cs
  let (second, cs) ← number? 2 cs
  let (second, isLeap) ← second? second
  let (nano, cs) ← fraction? cs
  let (offset, cs) ← offset? cs
  let date : Calendar.Date := ⟨year, month, day⟩
  if trimStart cs = [] ∧ date.isValid ∧ Calendar.firstYear ≤ year ∧ year ≤ Calendar.lastYear
      ∧ hour < 24 ∧ minute < 60 then
    let s := date.number * secondsPerDay + (hour : Int) * 3600 + (minute : Int) * 60 + (second : Int)
    some ((s - offset) * nanosPerSecond + (nano : Int), isLeap)
  else none

end Rfc3339

namespace Stamp

def chars (s : Stamp) : List Char :=
  let n := s.moment.seconds
  Rfc3339.dateText (Calendar.Date.ofNumber (n / secondsPerDay)) ++ 'T' ::
    Rfc3339.clockText (n % secondsPerDay).toNat s.isLeap.toNat
    ++ Rfc3339.fractionText (s.moment.nanos % nanosPerSecond).toNat ++ ['Z']

def text (s : Stamp) : String := String.ofList s.chars

def read? (s : String) : Option Stamp := do
  let (nanos, isLeap) ← Rfc3339.nanos? s.toList
  return ⟨← Moment.ofNanos? nanos, isLeap⟩

end Stamp

namespace Moment

def text (m : Moment) : String := Stamp.text m

/-- the moment that a text shows, if the calendar holds it; a leap second counts as the one before -/
def read? (s : String) : Option Moment := (Stamp.read? s).map Stamp.moment

end Moment

end Rota
