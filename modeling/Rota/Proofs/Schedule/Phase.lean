import Rota.Proofs.Schedule.Line
import Rota.Proofs.Zone.Changes
import Mathlib.Logic.Function.Iterate

/-!
# The phase of a weekly cadence

A slot can be moved on from its reading, and it can be far from its reading in a zone that is far
from UTC; but the wall clock shows its own day at it, or one of the two days after it.  So the
weekday tells its own day, and a step from it leads whole weeks on.

* `Cadence.step_weekly`   one step of a weekly cadence;
* `weekly_phase`          one step, and a run of steps.
-/

namespace Rota

open Calendar

section
variable {z : ZoneClock} (hz : z.Faithful) {weekday : Weekday} (time : TimeOfDay) (weeks : Nat)
  {d : Int} (hday : weekdayNumber d = weekday.number) (h0 : firstDay ≤ d) (h1 : d + 2 ≤ lastDay)
include hz hday h0 h1

theorem Cadence.step_weekly {p : Moment} (hp : z.resolve d time = .ok p) :
    (Cadence.weekly weekday time weeks).step z p =
      if d + 7 * weeks ≤ lastDay then z.resolve (d + 7 * weeks) time
      else .error .beyondCalendar := by
  have hw := weekday.number_lt
  have ht := time.seconds_bounds
  have hl := lastSecond_eq_lastDay
  obtain ⟨s, hs, hps⟩ := ZoneClock.answer_of_resolve (by omega) hp
  have hb := hs.bounds hz
  obtain ⟨e, he, hde, hed⟩ := hs.exists_localDay hz hps h0 (by omega)
  have hline (i : Int) : (DayLine.weekly weekday).day i = 7 * i + weekday.number - 4 := rfl
  have hplace : (DayLine.weekly weekday).place e = (e + 4 - weekday.number) / 7 := rfl
  unfold weekdayNumber at hday
  -- the days of a week from `d` on have one place
  have hd : (DayLine.weekly weekday).day ((DayLine.weekly weekday).place e) = d := by
    rw [hline, hplace]
    omega
  have hd' : (DayLine.weekly weekday).day ((DayLine.weekly weekday).place e + weeks)
      = d + 7 * weeks := by
    rw [hline] at hd ⊢
    omega
  rw [Cadence.step_eq_slot (.weekly weekday time weeks) he (by rwa [hd]), DayLine.slot, hd',
    Cadence.onDay]
  exact if_congr (and_iff_right (by omega)) rfl rfl

omit h1 in
theorem Cadence.iterate_step_weekly {p : Moment} (hp : z.resolve d time = .ok p) (k : Nat)
    (hk : d + 7 * (k * weeks : Nat) + 2 ≤ lastDay) :
    ∃ q, z.resolve (d + 7 * (k * weeks : Nat)) time = .ok q ∧
      (fun x => x >>= (Cadence.weekly weekday time weeks).step z)^[k] (.ok p) = .ok q := by
  induction k with
  | zero =>
    refine ⟨p, ?_, rfl⟩
    rwa [Nat.zero_mul, Int.natCast_zero, Int.mul_zero, Int.add_zero]
  | succ k ih =>
    rw [Nat.succ_mul, Int.natCast_add, Int.mul_add, ← Int.add_assoc] at hk ⊢
    obtain ⟨q, hq, hiter⟩ := ih (by omega)
    have hweekday : weekdayNumber (d + 7 * (k * weeks : Nat)) = weekday.number := by
      unfold weekdayNumber at *
      omega
    obtain ⟨r, hr⟩ : ∃ r, z.resolve (d + 7 * (k * weeks : Nat) + 7 * weeks) time = .ok r :=
      ZoneClock.resolve_isOk time (by omega) (by omega)
    refine ⟨r, hr, ?_⟩
    rw [Function.iterate_succ_apply', hiter]
    show (Cadence.weekly weekday time weeks).step z q = .ok r
    rw [Cadence.step_weekly hz time weeks hweekday (by omega) (by omega) hq, if_pos (by omega), hr]

end

/-! ## the law -/

/-- In every zone whose offset is less than a day, and in which the instant that is found for a
reading shows it, one step from the slot of a weekday leads to the slot of the day so many weeks
later, or off the calendar; and every number of steps leads that many times as many weeks on.  This
holds also if the slot was moved on to a later date, and if the search for it gave up. -/
theorem weekly_phase {z : ZoneClock} (hz : z.Faithful) (weekday : Weekday) (time : TimeOfDay)
    (weeks : Nat) {d : Int} (hday : weekdayNumber d = weekday.number) (h0 : firstDay ≤ d)
    (h1 : d + 2 ≤ lastDay) :
    ∃ p, z.resolve d time = .ok p ∧
      (Cadence.weekly weekday time weeks).step z p =
        (if d + 7 * weeks ≤ lastDay then z.resolve (d + 7 * weeks) time
          else .error .beyondCalendar) ∧
      ∀ k : Nat, d + 7 * (k * weeks : Nat) + 2 ≤ lastDay →
        ∃ q, z.resolve (d + 7 * (k * weeks : Nat)) time = .ok q ∧
          (fun x => x >>= (Cadence.weekly weekday time weeks).step z)^[k] (.ok p) = .ok q := by
  obtain ⟨p, hp⟩ := ZoneClock.resolve_isOk (z := z) time h0 (by omega)
  refine ⟨p, hp, Cadence.step_weekly hz time weeks hday h0 h1 hp, fun k hk => ?_⟩
  exact Cadence.iterate_step_weekly hz time weeks hday h0 hp k hk

/-- Apia left out Friday, 2011-12-30.  The search for its slot at 00:10 gave up and came to a moment
of the next day; a week later there is the slot of the next Friday. -/
theorem weekly_phase_apia :
    NamedZone.pacificApia.clock.Faithful ∧ weekdayNumber 15338 = Weekday.friday.number ∧
      NamedZone.pacificApia.clock.resolve 15338 ⟨0, 10⟩
        = .ok ⟨1325290200000000000, by decide, by decide⟩ ∧
      NamedZone.pacificApia.clock.localDay ⟨1325290200000000000, by decide, by decide⟩
        = .ok 15339 ∧
      (Cadence.weekly .friday ⟨0, 10⟩ 1).step NamedZone.pacificApia.clock
          ⟨1325290200000000000, by decide, by decide⟩
        = NamedZone.pacificApia.clock.resolve 15345 ⟨0, 10⟩ := by
  have hz := NamedZone.pacificApia_regular.faithful
  have hday : weekdayNumber 15338 = Weekday.friday.number := by decide
  have hp : NamedZone.pacificApia.clock.resolve 15338 ⟨0, 10⟩
      = .ok ⟨1325290200000000000, by decide, by decide⟩ := by decide +kernel
  obtain ⟨p, hp', hstep, -⟩ := weekly_phase hz .friday ⟨0, 10⟩ 1 hday (by decide) (by decide)
  rw [hp, Except.ok.injEq] at hp'
  subst hp'
  exact ⟨hz, hday, hp, by decide +kernel, hstep⟩

end Rota
