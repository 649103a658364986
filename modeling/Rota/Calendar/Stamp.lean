import Rota.Calendar.Moment

/-!
# Stamps

A text can show a second that the calendar does not count: the sixtieth of a minute.  A stamp is a
moment, or an instant in such a leap second, told by the moment one second before it.

* `Stamp.due`       when clocks that count no leap second have reached it;
* `Stamp.isAfter`   whether it comes after a moment;
* `Stamp.since`     the time from a moment to it.
-/

namespace Rota

structure Stamp where
  /-- the moment; for an instant in a leap second the one a second before -/
  moment : Moment
  isLeap : Bool := false
deriving DecidableEq

namespace Stamp

def ofMoment (m : Moment) : Stamp := ⟨m, false⟩

instance : Coe Moment Stamp := ⟨ofMoment⟩

/-- the nanosecond at which a clock has reached the stamp; no clock shows the leap second itself -/
def due (s : Stamp) : Int :=
  if s.isLeap then (s.moment.seconds + 1) * nanosPerSecond else s.moment.nanos

def isAfter (s : Stamp) (m : Moment) : Bool := decide (m.nanos < s.due)

def secondOfDay (m : Moment) : Int := m.seconds % secondsPerDay

/-- the nanoseconds from a moment to the stamp.  A leap second counts, but not when it comes earlier
in its day than the moment does in its own. -/
def since (s : Stamp) (m : Moment) : Int :=
  let plain := s.moment.nanos - m.nanos
  if s.isLeap ∧ secondOfDay m ≤ secondOfDay s.moment then plain + nanosPerSecond else plain

/-! ## small laws -/

theorem isAfter_coe (m n : Moment) : isAfter n m = decide (m < n) := rfl

end Stamp

end Rota
