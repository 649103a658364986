import Rota.Proofs.Schedule.Dates
import Rota.Proofs.Schedule.Restart
import Rota.Proofs.Zone.Daylight

/-!
# The first slot in zones with daylight saving

The search for the next slot begins with the date that the wall clock shows now.  In a zone with
daylight saving that is early enough, and the search ends with the least slot after now, provided
that no slot is moved on to another date.  The slot after a prompt firing is the same one.

* `Moment.Central`            moments away from the ends of the calendar;
* `Daylight.shown_soon`       the search for a reading gets over every gap;
* `Daylight.localDay_slot`    no slot before nine in the evening is moved on to another date;
* `Daylight.le_of_localDay_lt`   the slots of earlier dates are over;
* `next_isLeast_slot`         the next run is the least slot after now.
-/

namespace Rota

open Calendar

/-- the moment lies a hundred days from both ends of the calendar, or deeper in it -/
def Moment.Central (m : Moment) : Prop :=
  firstSecond + 8640000 ≤ m.seconds ∧ m.seconds + 8640000 ≤ lastSecond

instance (m : Moment) : Decidable m.Central := inferInstanceAs (Decidable (_ ∧ _))

theorem Moment.Central.inner {m : Moment} (h : m.Central) : m.Inner := by
  obtain ⟨h0, h1⟩ := h
  exact ⟨by omega, h1⟩

namespace ZoneClock

structure Inside (w : Int) : Prop where
  first_le : firstSecond + 86400 ≤ w
  le_last : w + 172800 ≤ lastSecond

/-! ## gaps -/

section
variable {z : ZoneClock} (hz : z.Daylight) {w s : Int}
include hz

/-- a reading is shown, or one that is shown comes within three hours of it -/
theorem Daylight.shown_soon (hw : Inside w) : ∃ j : Nat, j ≤ 12 ∧ ∃ p, z.Shown (w + 900 * j) p := by
  have h0 := hw.first_le
  have h1 := hw.le_last
  cases he : z.earliest? w with
  | some p =>
    have hp := hz.orderly.shows he
    have ho := hz.orderly.offset_bounds p
    unfold reading at hp
    exact ⟨0, by omega, p, by simpa using he, by omega, by omega⟩
  | none =>
    obtain ⟨t, ht0, ht1, hs⟩ := hz.orderly.exists_skips he
    have hbefore := hs.before
    have hgap : z.reading (t + 1) ≤ w + 10800 := by
      have hle := (hz.change_le t).1
      unfold reading at *
      omega
    obtain ⟨j, hj, hp⟩ := hs.exists_shown hz.orderly (by omega) (by omega) (by omega)
    exact ⟨j, by omega, hp⟩

theorem Daylight.not_givesUp (hw : Inside w) : ¬z.GivesUp w := by
  intro hgives
  obtain ⟨j, hj, p, hp⟩ := hz.shown_soon hw
  exact hgives j (by omega) p hp

theorem Daylight.reading_le (hw : Inside w) (h : z.Answer w s) :
    w ≤ z.reading s ∧ z.reading s ≤ w + 10800 := by
  cases h with
  | found k hk hle before shown =>
    have hs := hz.orderly.shows shown.earliest
    obtain ⟨j, hj, p, hp⟩ := hz.shown_soon hw
    have hkj : k ≤ j := by
      by_contra hlt
      exact before j (by omega) p hp
    omega
  | gaveUp gives => exact absurd gives (hz.not_givesUp hw)

end

end ZoneClock

/-! ## slots -/

theorem DayLine.inside_wall {l : DayLine} {i : Int} (time : TimeOfDay)
    (h0 : firstDay + 1 ≤ l.day i) (h1 : l.day i + 3 ≤ lastDay) :
    ZoneClock.Inside (l.wall time i) := by
  have hw := l.wall_bounds time i
  have hf := firstSecond_eq_firstDay
  have hl := lastSecond_eq_lastDay
  exact ⟨by omega, by omega⟩

section
variable {l : DayLine} {z : ZoneClock} (hz : z.Daylight) {time : TimeOfDay} {i j d : Int}
  {now p q : Moment}
include hz

theorem ZoneClock.Daylight.day_bounds (hnow : now.Central) (hd : z.localDay now = .ok d) :
    firstDay + 90 ≤ d ∧ d + 90 ≤ lastDay := by
  obtain ⟨-, -, e⟩ := ZoneClock.localDay_eq_ok_iff.1 hd
  have ho := hz.orderly.offset_bounds now.seconds
  have hf := firstSecond_eq_firstDay
  have hl := lastSecond_eq_lastDay
  obtain ⟨h0, h1⟩ := hnow
  unfold ZoneClock.reading at e
  omega

/-- no slot before nine in the evening is moved on to another date -/
theorem ZoneClock.Daylight.localDay_slot (htime : time.seconds < 75600)
    (hi : ZoneClock.Inside (l.wall time i)) (hp : l.slot z time i = .ok p) :
    z.localDay p = .ok (l.day i) := by
  obtain ⟨s, hs, hps⟩ := DayLine.answer_of_slot hp
  have hr := hz.reading_le hi hs
  have h0 := hi.first_le
  have h1 := hi.le_last
  have ht := time.seconds_bounds
  rw [ZoneClock.localDay_eq_ok_iff, hps.seconds_eq]
  unfold DayLine.wall at *
  omega

theorem ZoneClock.Daylight.slot_lt (hi : ZoneClock.Inside (l.wall time i))
    (hp : l.slot z time i = .ok p) (hq : l.slot z time j = .ok q) (hij : i < j) : p < q :=
  DayLine.slot_lt hz.orderly hp hq hij fun hgives => absurd hgives (hz.not_givesUp hi)

theorem ZoneClock.Daylight.le_of_localDay_lt (hnow : now.Central) (hd : z.localDay now = .ok d)
    (hp : l.slot z time j = .ok p) (hplace : z.localDay p = .ok (l.day j)) (hlt : l.day j < d) :
    p ≤ now := by
  obtain ⟨s, hs, hps⟩ := DayLine.answer_of_slot hp
  obtain ⟨-, -, ed⟩ := ZoneClock.localDay_eq_ok_iff.1 hd
  obtain ⟨-, -, ej⟩ := ZoneClock.localDay_eq_ok_iff.1 hplace
  rw [hps.seconds_eq] at ej
  rw [hps.le_iff]
  cases hs with
  | found k hk hle before shown =>
    have hr := hz.orderly.shows shown.earliest
    exact hz.orderly.earliest_le shown.earliest (by omega)
  | gaveUp gives hle =>
    -- away from the ends of the calendar no search gives up
    by_contra hafter
    have hw := l.wall_bounds time j
    have ho := hz.orderly.offset_bounds now.seconds
    obtain ⟨h0, h1⟩ := hnow
    unfold ZoneClock.reading at ed
    exact hz.not_givesUp ⟨by omega, by omega⟩ gives

end

/-! ## the least slot -/

section
variable {c : Cadence} {l : DayLine} {z : ZoneClock} {time : TimeOfDay} (hz : z.Daylight)
  (hplace : ∀ i p, l.slot z time i = .ok p → z.localDay p = .ok (l.day i))
include hz hplace

theorem Cadence.Follows.exists_next_daylight {n : Nat} (hc : c.Follows l time n) {now : Moment}
    (hnow : now.Central) :
    ∃ q, c.next z now = .ok q ∧ IsLeast {p | now < p ∧ ∃ i, l.slot z time i = .ok p} q := by
  have hf := hz.orderly.toFaithful
  obtain ⟨d, hd, -⟩ := ZoneClock.localDay_of_inner hf hnow.inner
  obtain ⟨h0, h1⟩ := hz.day_bounds hnow hd
  obtain ⟨k, hk⟩ := l.exists_isFirst z time now (l.start d)
  have hkd := hk.day_le hf hd
  obtain ⟨q, hq⟩ : ∃ q, l.slot z time k = .ok q :=
    DayLine.slot_isOk (hk.firstDay_le hd) (by omega)
  have hover {j : Int} {p : Moment} (hp : l.slot z time j = .ok p) (hlt : l.day j < d) : p ≤ now :=
    hz.le_of_localDay_lt hnow hd hp (hplace j p hp) hlt
  -- the slots of earlier dates are over, so the search ends with today or a later date
  have hdk : d ≤ l.day k := by
    by_contra hlt
    exact absurd (hover hq (not_le.1 hlt)) (not_le.2 (hk.after q hq))
  have hinside := DayLine.inside_wall (l := l) (i := k) time (by omega) (by omega)
  refine ⟨q, by rw [Cadence.next_eq hc hd hk, hq]; rfl, hk.isLeast ?_ hq ?_⟩
  · intro j p hj hp
    exact hover hp (l.day_lt hj)
  · intro j p hkj hp
    exact le_of_lt (hz.slot_lt hinside hq hp hkj)

theorem Cadence.Follows.nextAfter_eq_next (hc : c.Follows l time 1) {i : Int} {p : Moment}
    (hp : l.slot z time i = .ok p) (hcentral : p.Central) :
    c.nextAfter z ⟨p, p, .scheduled⟩ p = c.next z p := by
  have hd := hplace i p hp
  obtain ⟨h0, h1⟩ := hz.day_bounds hcentral hd
  have hinside := DayLine.inside_wall (l := l) (i := i) time (by omega) (by omega)
  have hlater (q : Moment) (hq : l.slot z time (i + (1 : Nat)) = .ok q) : p < q :=
    hz.slot_lt hinside hp hq (by omega)
  have hk : l.IsFirst z time p (l.start (l.day i)) (i + (1 : Nat)) := by
    rw [l.start_day]
    refine ⟨by omega, ?_, hlater⟩
    intro j hij hji
    obtain rfl : j = i := by omega
    exact ⟨p, hp, le_rfl⟩
  have hstep := hc.step_of_localDay hp hd
  rw [Cadence.next_eq hc hd hk, ← hstep]
  apply hc.nextAfter_eq_step
  intro q hq
  rw [hstep] at hq
  exact hlater q hq

end

/-- In every zone with daylight saving, and for every cadence with a time of day none of whose slots
is moved on to another date, the next run is the least slot after `now` on any of its dates, away
from the ends of the calendar.  If the cadence is due on all days of its line, the run after a firing
that starts and ends at its slot is the next one after that slot. -/
theorem next_isLeast_slot {z : ZoneClock} (hz : z.Daylight) {c : Cadence} {l : DayLine}
    {time : TimeOfDay} {n : Nat} (hc : c.Follows l time n)
    (hplace : ∀ d p, c.SlotOn z d p → z.localDay p = .ok d) :
    (∀ now : Moment, now.Central →
      ∃ q, c.next z now = .ok q ∧ IsLeast {p | now < p ∧ ∃ d, c.SlotOn z d p} q) ∧
    (n = 1 → ∀ d p, c.SlotOn z d p → p.Central →
      c.nextAfter z ⟨p, p, .scheduled⟩ p = c.next z p) := by
  have hplace' (i : Int) (p : Moment) (hp : l.slot z time i = .ok p) :
      z.localDay p = .ok (l.day i) := hplace _ p (hc.slotOn_iff.2 ⟨i, rfl, hp⟩)
  constructor
  · intro now hnow
    simp only [hc.exists_slotOn_iff]
    exact hc.exists_next_daylight hz hplace' hnow
  · rintro rfl d p hslot hp
    obtain ⟨i, -, hi⟩ := hc.slotOn_iff.1 hslot
    exact hc.nextAfter_eq_next hz hplace' hi hp

/-- On 2024-03-31 the clock in Berlin was set forward over 02:30.  At half past one the slot of that
day, which was moved on to 03:00, is the least one ahead. -/
theorem next_isLeast_slot_berlin :
    NamedZone.europeBerlin.clock.Daylight ∧
      (Cadence.dailyTime ⟨2, 30⟩ 86400).Follows .daily ⟨2, 30⟩ 1 ∧
      (∀ d p, (Cadence.dailyTime ⟨2, 30⟩ 86400).SlotOn NamedZone.europeBerlin.clock d p →
        NamedZone.europeBerlin.clock.localDay p = .ok d) ∧
      (Cadence.dailyTime ⟨2, 30⟩ 86400).next NamedZone.europeBerlin.clock
        ⟨1711845000000000000, by decide, by decide⟩
        = .ok ⟨1711846800000000000, by decide, by decide⟩ ∧
      IsLeast {p | ⟨1711845000000000000, by decide, by decide⟩ < p ∧
        ∃ d, (Cadence.dailyTime ⟨2, 30⟩ 86400).SlotOn NamedZone.europeBerlin.clock d p}
        ⟨1711846800000000000, by decide, by decide⟩ ∧
      (Cadence.dailyTime ⟨2, 30⟩ 86400).nextAfter NamedZone.europeBerlin.clock
        ⟨⟨1711846800000000000, by decide, by decide⟩, ⟨1711846800000000000, by decide, by decide⟩,
          .scheduled⟩ ⟨1711846800000000000, by decide, by decide⟩
        = (Cadence.dailyTime ⟨2, 30⟩ 86400).next NamedZone.europeBerlin.clock
          ⟨1711846800000000000, by decide, by decide⟩ := by
  have hz := NamedZone.europeBerlin_daylight
  have hc := Cadence.Follows.daily ⟨2, 30⟩ 86400
  -- at the ends of the calendar, where a slot might lie outside, by evaluation
  have hends : ∀ d ∈ [firstDay, lastDay - 2, lastDay - 1, lastDay],
      (DayLine.daily.slot NamedZone.europeBerlin.clock ⟨2, 30⟩ d >>=
        NamedZone.europeBerlin.clock.localDay) = .ok d := by decide +kernel
  have hplace (d : Int) (p : Moment)
      (h : (Cadence.dailyTime ⟨2, 30⟩ 86400).SlotOn NamedZone.europeBerlin.clock d p) :
      NamedZone.europeBerlin.clock.localDay p = .ok d := by
    obtain ⟨i, rfl, hp⟩ := hc.slotOn_iff.1 h
    have hmem := DayLine.mem_of_slot hp
    have hday : DayLine.daily.day i = i := rfl
    by_cases hin : firstDay + 1 ≤ i ∧ i + 3 ≤ lastDay
    · exact hz.localDay_slot (by decide) (DayLine.inside_wall _ hin.1 hin.2) hp
    · have hend : i ∈ [firstDay, lastDay - 2, lastDay - 1, lastDay] := by
        simp only [List.mem_cons, List.not_mem_nil]
        omega
      have hshown := hends i hend
      rwa [hp] at hshown
  have hd : NamedZone.europeBerlin.clock.localDay ⟨1711845000000000000, by decide, by decide⟩
      = .ok 19813 := by decide +kernel
  have hp : DayLine.daily.slot NamedZone.europeBerlin.clock ⟨2, 30⟩ 19813
      = .ok ⟨1711846800000000000, by decide, by decide⟩ := by decide +kernel
  have hk := DayLine.isFirst_of_lt hp
    (show ⟨1711845000000000000, by decide, by decide⟩ < _ by decide)
  have hnext := Cadence.next_eq hc hd hk
  rw [hp] at hnext
  obtain ⟨hleast, hprompt⟩ := next_isLeast_slot hz hc hplace
  obtain ⟨q, hq, hq'⟩ := hleast ⟨1711845000000000000, by decide, by decide⟩
    ⟨by decide, by decide⟩
  have e : q = ⟨1711846800000000000, by decide, by decide⟩ :=
    Except.ok.inj (hq.symm.trans hnext)
  rw [e] at hq'
  exact ⟨hz, hc, hplace, hnext, hq',
    hprompt rfl 19813 _ (hc.slotOn_iff.2 ⟨19813, rfl, hp⟩) ⟨by decide, by decide⟩⟩

end Rota
