import Rota.Proofs.Calendar.Gregorian
import Rota.Proofs.Schedule.Normalize
import Mathlib.Order.Bounds.Defs

/-!
# The dates of a cadence

The days of a line are described by their dates here, and the slots of a cadence are the slots of
these days.

* `Cadence.IsOn`             the days on which a cadence is due;
* `Cadence.Follows.isOn_iff`   they are the days of its line;
* `Cadence.SlotOn`           the slot of a cadence on a day;
* `DayLine.IsFirst.isLeast`  a search ends with the least slot after `now`, if the slots before its
  first day are over and the slots after its last day come later.
-/

namespace Rota

open Calendar

/-- the days on which a cadence is due: a weekday, or a day of the month, which is the last one in
shorter months, or every day -/
def Cadence.IsOn : Cadence → Int → Prop
  | .weekly weekday _ _, d => weekdayNumber d = weekday.number
  | .monthly day _ _, d =>
    (Date.ofNumber d).day = min day (monthLength (Date.ofNumber d).year (Date.ofNumber d).month)
  | .dailyTime _ _, _ => True
  | .plainInterval _, _ => False

instance Cadence.decidableIsOn (c : Cadence) (d : Int) : Decidable (c.IsOn d) :=
  match c with
  | .weekly .. => inferInstanceAs (Decidable (_ = _))
  | .monthly .. => inferInstanceAs (Decidable (_ = _))
  | .dailyTime .. => inferInstanceAs (Decidable True)
  | .plainInterval .. => inferInstanceAs (Decidable False)

/-! ## the days of a line -/

theorem DayLine.exists_weekly_day (weekday : Weekday) (d : Int) :
    (∃ i, (weekly weekday).day i = d) ↔ weekdayNumber d = weekday.number := by
  have hw := weekday.number_lt
  have hday (i : Int) : (weekly weekday).day i = 7 * i + weekday.number - 4 := rfl
  unfold weekdayNumber
  constructor
  · rintro ⟨i, rfl⟩
    rw [hday]
    omega
  · intro h
    exact ⟨(d + 4 - weekday.number) / 7, by rw [hday]; omega⟩

theorem DayLine.exists_monthly_day {day : Nat} (h : 1 ≤ day) (d : Int) :
    (∃ i, (monthly day h).day i = d) ↔ (Date.ofNumber d).day
      = min day (monthLength (Date.ofNumber d).year (Date.ofNumber d).month) := by
  have hday (i : Int) : (monthly day h).day i = Date.number ⟨yearOfIndex i, monthOfIndex i,
      min day (monthLength (yearOfIndex i) (monthOfIndex i))⟩ := rfl
  constructor
  · rintro ⟨i, rfl⟩
    have hl := (monthLength_bounds (yearOfIndex i) (monthOfIndex i)).1
    rw [hday, Date.ofNumber_number]
    rw [Date.isValid_iff]
    exact ⟨monthOfIndex_pos i, monthOfIndex_le i, by simp only; omega, Nat.min_le_right ..⟩
  · intro hd
    obtain ⟨ey, em⟩ := Date.ofNumber_index d
    refine ⟨monthOfDay d, ?_⟩
    rw [hday, ey, em, ← hd]
    exact Date.number_ofNumber d

section
variable {c : Cadence} {l : DayLine} {z : ZoneClock} {time : TimeOfDay} {n : Nat}

theorem Cadence.Follows.isOn_iff (hc : c.Follows l time n) (d : Int) :
    c.IsOn d ↔ ∃ i, l.day i = d := by
  cases hc with
  | daily => exact ⟨fun _ => ⟨d, rfl⟩, fun _ => trivial⟩
  | weekly weekday => exact (DayLine.exists_weekly_day weekday d).symm
  | monthly h => exact (DayLine.exists_monthly_day h d).symm

theorem Cadence.Follows.time?_eq (hc : c.Follows l time n) : c.time? = some time := by
  cases hc <;> rfl

theorem Cadence.Accepted.exists_follows (h : c.Accepted) (ht : c.time? = some time) :
    ∃ l n, c.Follows l time n ∧ 1 ≤ n := by
  rcases h.plain_or_follows with ⟨seconds, -, rfl⟩ | ⟨l, time', n, hc, hn⟩
  · exact nomatch ht
  · rw [hc.time?_eq, Option.some.injEq] at ht
    subst ht
    exact ⟨l, n, hc, hn⟩

/-! ## slots -/

def Cadence.SlotOn (z : ZoneClock) (c : Cadence) (d : Int) (p : Moment) : Prop :=
  c.IsOn d ∧ ∃ time, c.time? = some time ∧ Cadence.onDay z time d = .ok p

theorem Cadence.Follows.slotOn_iff (hc : c.Follows l time n) {d : Int} {p : Moment} :
    c.SlotOn z d p ↔ ∃ i, l.day i = d ∧ l.slot z time i = .ok p := by
  unfold Cadence.SlotOn
  rw [hc.isOn_iff, hc.time?_eq]
  constructor
  · rintro ⟨⟨i, rfl⟩, time', e, hp⟩
    rw [Option.some.injEq] at e
    subst e
    exact ⟨i, rfl, hp⟩
  · rintro ⟨i, rfl, hp⟩
    exact ⟨⟨i, rfl⟩, time, rfl, hp⟩

theorem Cadence.Follows.exists_slotOn_iff (hc : c.Follows l time n) {p : Moment} :
    (∃ d, c.SlotOn z d p) ↔ ∃ i, l.slot z time i = .ok p := by
  simp only [hc.slotOn_iff]
  exact ⟨fun ⟨_, i, _, hp⟩ => ⟨i, hp⟩, fun ⟨i, hp⟩ => ⟨_, i, rfl, hp⟩⟩

/-! ## the end of a search -/

namespace DayLine

variable {now q : Moment} {i k : Int} (hk : l.IsFirst z time now i k)
  (hpast : ∀ j p, j < i → l.slot z time j = .ok p → p ≤ now)
include hk hpast

/-- the slots that a search leaves behind are over -/
theorem IsFirst.le_of_lt {j : Int} {p : Moment} (hp : l.slot z time j = .ok p) (hjk : j < k) :
    p ≤ now := by
  by_cases hj : j < i
  · exact hpast j p hj hp
  · obtain ⟨m, hm, hle⟩ := hk.before j (by omega) hjk
    rw [hp, Except.ok.injEq] at hm
    rwa [hm]

theorem IsFirst.isLeast (hq : l.slot z time k = .ok q)
    (hlater : ∀ j p, k < j → l.slot z time j = .ok p → q ≤ p) :
    IsLeast {p | now < p ∧ ∃ j, l.slot z time j = .ok p} q := by
  refine ⟨⟨hk.after q hq, k, hq⟩, ?_⟩
  rintro p ⟨hnow, j, hp⟩
  rcases lt_trichotomy j k with hjk | rfl | hjk
  · exact absurd (hk.le_of_lt hpast hp hjk) (not_le.2 hnow)
  · rw [hq, Except.ok.injEq] at hp
    exact le_of_eq hp
  · exact hlater j p hjk hp

theorem IsFirst.le_of_lastDay_lt (hout : lastDay < l.day k) {j : Int} {p : Moment}
    (hp : l.slot z time j = .ok p) : p ≤ now := by
  refine hk.le_of_lt hpast hp (l.day_lt_iff.1 ?_)
  have hmem := mem_of_slot hp
  omega

end DayLine

end

end Rota
