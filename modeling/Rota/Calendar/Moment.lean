import Rota.Calendar.Date

/-!
# Moments

A moment is an instant of the calendar, in nanoseconds from 1970-01-01T00:00:00Z.  The calendar
has ends, and the type holds no instant outside them.

* `Moment.ofNanos?`, `Moment.ofSeconds?`   the moment of a count, if the calendar holds it;
* `Moment.add?`                            a moment moved by a number of nanoseconds;
* `Moment.first`, `Moment.last`            the ends; `last` also stands for "never".
-/

namespace Rota

abbrev nanosPerSecond : Int := 1000000000

abbrev nanosPerMilli : Int := 1000000

abbrev secondsPerDay : Int := 86400

namespace Calendar

def firstSecond : Int := firstDay * secondsPerDay

def lastSecond : Int := lastDay * secondsPerDay + 86399

def firstNano : Int := firstSecond * nanosPerSecond

def lastNano : Int := lastSecond * nanosPerSecond + 999999999

end Calendar

/-- an instant of the calendar -/
structure Moment where
  /-- nanoseconds from 1970-01-01T00:00:00Z -/
  nanos : Int
  first_le : Calendar.firstNano ≤ nanos
  le_last : nanos ≤ Calendar.lastNano
deriving DecidableEq

namespace Moment

instance : LT Moment := ⟨fun a b => a.nanos < b.nanos⟩
instance : LE Moment := ⟨fun a b => a.nanos ≤ b.nanos⟩
instance (a b : Moment) : Decidable (a < b) := inferInstanceAs (Decidable (a.nanos < b.nanos))
instance (a b : Moment) : Decidable (a ≤ b) := inferInstanceAs (Decidable (a.nanos ≤ b.nanos))

theorem lt_def {a b : Moment} : a < b ↔ a.nanos < b.nanos := Iff.rfl
theorem le_def {a b : Moment} : a ≤ b ↔ a.nanos ≤ b.nanos := Iff.rfl

theorem ext_nanos : {a b : Moment} → a.nanos = b.nanos → a = b
  | ⟨_, _, _⟩, ⟨_, _, _⟩, rfl => rfl

def ofNanos? (n : Int) : Option Moment :=
  if h : Calendar.firstNano ≤ n ∧ n ≤ Calendar.lastNano then some ⟨n, h.1, h.2⟩ else none

def ofSeconds? (s : Int) : Option Moment := ofNanos? (s * nanosPerSecond)

def seconds (m : Moment) : Int := m.nanos / nanosPerSecond

def add? (m : Moment) (n : Int) : Option Moment := ofNanos? (m.nanos + n)

def addSeconds? (m : Moment) (s : Int) : Option Moment := m.add? (s * nanosPerSecond)

def first : Moment := ⟨Calendar.firstNano, by decide, by decide⟩

/-- the last instant of the calendar; as the time of a run it means "never" -/
def last : Moment := ⟨Calendar.lastNano, by decide, by decide⟩

/-! ## small laws -/

theorem le_last_moment (m : Moment) : m ≤ last := m.le_last

theorem first_le_moment (m : Moment) : first ≤ m := m.first_le

theorem ofNanos?_eq_some_iff {n : Int} {m : Moment} : ofNanos? n = some m ↔ m.nanos = n := by
  unfold ofNanos?
  constructor
  · intro h
    split at h
    · simp only [Option.some.injEq] at h
      rw [← h]
    · simp at h
  · rintro rfl
    rw [dif_pos ⟨m.first_le, m.le_last⟩]

theorem ofNanos?_eq_none_iff {n : Int} :
    ofNanos? n = none ↔ n < Calendar.firstNano ∨ Calendar.lastNano < n := by
  unfold ofNanos?
  split <;> simp only [reduceCtorEq, false_iff, true_iff] <;> omega

theorem ofNanos?_nanos (m : Moment) : ofNanos? m.nanos = some m := ofNanos?_eq_some_iff.2 rfl

end Moment

end Rota
