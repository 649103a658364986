import Rota.Calendar.Date
import Rota.Zone.Clock

/-!
# Rules for changes of the clock

A zone's changes are written as rules: in the years from one to another, on a day of a month, at a
local time, the clock goes from one offset to another.

* `RuleDay`        a day of a month: a date, the last Sunday, the first Sunday from a date on;
* `ClockRule`      one rule;
* `changesOf`      the changes that a list of rules makes, year after year.

Within a year the changes are put in the order of their instants.
-/

namespace Rota

/-- which day of a month a rule means -/
inductive RuleDay where
  | date (day : Nat)
  | lastSunday
  | sundayFrom (day : Nat)
deriving DecidableEq, Repr

/-- in the years `first` to `last`: in this month, on this day, at this second of the local day, the
offset goes from `before` to `after` -/
structure ClockRule where
  first : Int
  last : Int
  month : Nat
  day : RuleDay
  second : Int
  before : Int
  after : Int
deriving DecidableEq, Repr

def sundayOnOrAfter (n : Int) : Int := n + ((7 - Calendar.weekdayNumber n) % 7 : Nat)

def sundayOnOrBefore (n : Int) : Int := n - (Calendar.weekdayNumber n : Int)

def RuleDay.number (d : RuleDay) (year : Int) (month : Nat) : Int :=
  match d with
  | .date day => Calendar.Date.number ⟨year, month, day⟩
  | .lastSunday =>
    sundayOnOrBefore (Calendar.Date.number ⟨year, month, Calendar.monthLength year month⟩)
  | .sundayFrom day => sundayOnOrAfter (Calendar.Date.number ⟨year, month, day⟩)

/-- the change that the rule makes in a year, if the year is one of its own -/
def ClockRule.change? (r : ClockRule) (year : Int) : Option OffsetChange :=
  if r.first ≤ year ∧ year ≤ r.last then
    some ⟨r.day.number year r.month * 86400 + r.second - r.before, r.after⟩
  else none

def insertChange (c : OffsetChange) : List OffsetChange → List OffsetChange
  | [] => [c]
  | d :: ds => if c.since ≤ d.since then c :: d :: ds else d :: insertChange c ds

def changesOfYear (rules : List ClockRule) (year : Int) : List OffsetChange :=
  (rules.filterMap (·.change? year)).foldr insertChange []

def firstRuleYear : Int := 1970

def ruleYears : Nat := 130

def changesOf (rules : List ClockRule) : List OffsetChange :=
  (List.range ruleYears).flatMap fun k : Nat => changesOfYear rules (firstRuleYear + (k : Int))

end Rota
