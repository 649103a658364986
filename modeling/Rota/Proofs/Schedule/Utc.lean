import Rota.Proofs.Schedule.Dates
import Rota.Proofs.Schedule.Monotone
import Rota.Zone.Table

/-!
# The next run in UTC

In UTC the wall clock shows the time of the moments themselves.  Every day of the calendar has its
slot at the time of day, and the slots of a cadence are the moments that show this time on its dates.

* `ZoneClock.utc_slot_iff`   the slots of a line in UTC;
* `Cadence.DueAt`            the moments at which a cadence is due, by date and time of day;
* `next_isLeast_utc`         the next run is the least of them after now.
-/

namespace Rota

open Calendar

/-! ## the clock -/

namespace ZoneClock

theorem utc_reading (t : Int) : (fixed 0).reading t = t := by
  unfold reading
  rw [fixed_offset, Int.add_zero]

theorem utc_localDay (m : Moment) : (fixed 0).localDay m = .ok m.day := by
  rw [localDay_eq_ok_iff, utc_reading]
  exact ⟨m.seconds_mem.1, m.seconds_mem.2, rfl⟩

theorem utc_resolve {d : Int} (time : TimeOfDay) (h0 : firstDay ≤ d) (h1 : d ≤ lastDay) :
    ∃ p, (fixed 0).resolve d time = .ok p ∧ p.AtSecond (d * 86400 + time.seconds) := by
  have ht := time.seconds_bounds
  have hf := firstSecond_eq_firstDay
  have hl := lastSecond_eq_lastDay
  obtain ⟨p, hp⟩ := Moment.exists_atSecond (s := d * 86400 + time.seconds) (by omega) (by omega)
  refine ⟨p, ?_, hp⟩
  have hfound : ((fixed 0).earliest? (d * secondsPerDay + time.seconds)).bind Moment.ofSeconds?
      = some p := by
    rw [fixed_earliest?, Int.sub_zero, Option.bind_some, Moment.ofSeconds?_eq_some_iff]
    exact hp
  rw [resolve, show gapTries = 95 + 1 from rfl, momentOf, hfound]

theorem utc_slot_iff {l : DayLine} {time : TimeOfDay} {i : Int} {p : Moment} :
    l.slot (fixed 0) time i = .ok p ↔ p.AtSecond (l.wall time i) := by
  constructor
  · intro hp
    have hmem := DayLine.mem_of_slot hp
    obtain ⟨q, hq, hqs⟩ := utc_resolve time hmem.1 hmem.2
    rw [DayLine.slot_of_mem hmem.1 hmem.2, hq, Except.ok.injEq] at hp
    rwa [← hp]
  · intro hp
    have hw := l.wall_bounds time i
    have hm := hp.mem
    have hf := firstSecond_eq_firstDay
    have hl := lastSecond_eq_lastDay
    obtain ⟨q, hq, hqs⟩ := utc_resolve (d := l.day i) time (by omega) (by omega)
    rw [DayLine.slot_of_mem (by omega) (by omega), hq, Except.ok.injEq]
    exact Moment.ext_nanos (hqs.trans hp.symm)

theorem utc_slot_or {l : DayLine} (time : TimeOfDay) {i : Int} (h : firstDay ≤ l.day i) :
    (∃ p, l.slot (fixed 0) time i = .ok p) ∨ lastDay < l.day i := by
  by_cases hout : lastDay < l.day i
  · exact .inr hout
  · obtain ⟨p, hp, -⟩ := utc_resolve time h (not_lt.1 hout)
    rw [← DayLine.slot_of_mem h (not_lt.1 hout)] at hp
    exact .inl ⟨p, hp⟩

theorem utc_slot_lt {l : DayLine} {time : TimeOfDay} {i j : Int} {p q : Moment}
    (hp : l.slot (fixed 0) time i = .ok p) (hq : l.slot (fixed 0) time j = .ok q) (hij : i < j) :
    p < q := by
  rw [utc_slot_iff] at hp hq
  rw [hq.lt_iff, hp.seconds_eq]
  have hday := l.day_lt_iff.2 hij
  unfold DayLine.wall
  omega

end ZoneClock

/-! ## the moments at which a cadence is due -/

theorem Moment.atSecond_iff {m : Moment} {d : Int} {time : TimeOfDay} :
    m.AtSecond (d * 86400 + time.seconds) ↔ m.day = d ∧ m.IsAt time := by
  have ht := time.seconds_bounds
  unfold AtSecond IsAt day seconds nanosPerSecond secondsPerDay
  omega

/-- the moments at which a cadence with a time of day is due in UTC: they show this time on one of
its dates -/
def Cadence.DueAt (c : Cadence) (t : Moment) : Prop :=
  c.IsOn t.day ∧ ∃ time, c.time? = some time ∧ t.IsAt time

/-- the moments after `now` at which a run of the cadence can be next: those at which it is due, or
the end of the interval that begins now -/
def Cadence.DueAfter (now : Moment) : Cadence → Moment → Prop
  | .plainInterval seconds, t => now < t ∧ t.nanos = now.nanos + seconds * nanosPerSecond
  | c, t => now < t ∧ c.DueAt t

section
variable {c : Cadence} {l : DayLine} {time : TimeOfDay} {n : Nat} (hc : c.Follows l time n)
include hc

theorem Cadence.Follows.dueAt_iff {t : Moment} :
    c.DueAt t ↔ ∃ i, l.slot (.fixed 0) time i = .ok t := by
  unfold Cadence.DueAt
  rw [hc.isOn_iff, hc.time?_eq]
  constructor
  · rintro ⟨⟨i, hi⟩, time', e, ht⟩
    rw [Option.some.injEq] at e
    subst e
    exact ⟨i, ZoneClock.utc_slot_iff.2 (Moment.atSecond_iff.2 ⟨hi.symm, ht⟩)⟩
  · rintro ⟨i, hi⟩
    obtain ⟨hd, ht⟩ := Moment.atSecond_iff.1 (ZoneClock.utc_slot_iff.1 hi)
    exact ⟨⟨i, hd.symm⟩, time, rfl, ht⟩

theorem Cadence.Follows.dueAfter_iff {now t : Moment} :
    c.DueAfter now t ↔ now < t ∧ ∃ i, l.slot (.fixed 0) time i = .ok t := by
  rw [← hc.dueAt_iff]
  cases hc <;> exact Iff.rfl

/-! ## the least of them -/

theorem Cadence.Follows.exists_next_utc (now : Moment) :
    ∃ q, c.next (.fixed 0) now = .ok q ∧
      (IsLeast {t | c.DueAfter now t} q ∨ (∀ t, ¬c.DueAfter now t) ∧ q = Moment.last) := by
  have hd := ZoneClock.utc_localDay now
  obtain ⟨k, hk⟩ := l.exists_isFirst (.fixed 0) time now (l.start now.day)
  have hpast (j : Int) (p : Moment) (hj : j < l.start now.day)
      (hp : l.slot (.fixed 0) time j = .ok p) : p ≤ now := by
    have hw := l.wall_bounds time j
    have hday := l.day_lt hj
    have hnow : now.day = now.seconds / 86400 := rfl
    rw [ZoneClock.utc_slot_iff] at hp
    rw [hp.le_iff]
    omega
  rw [Cadence.next_eq hc hd hk]
  simp only [hc.dueAfter_iff]
  rcases ZoneClock.utc_slot_or time (hk.firstDay_le hd) with ⟨q, hq⟩ | hout
  · refine ⟨q, by rw [hq]; rfl, .inl (hk.isLeast hpast hq fun j p hkj hp => ?_)⟩
    exact le_of_lt (ZoneClock.utc_slot_lt hq hp hkj)
  · rw [DayLine.slot_of_lt hout]
    refine ⟨Moment.last, rfl, .inr ⟨?_, rfl⟩⟩
    rintro t ⟨hnow, j, hp⟩
    exact absurd (hk.le_of_lastDay_lt hpast hout hp) (not_le.2 hnow)

end

theorem Cadence.plain_exists_next_utc {seconds : Nat} (hs : 1 ≤ seconds) (now : Moment) :
    ∃ q, (Cadence.plainInterval seconds).next (.fixed 0) now = .ok q ∧
      (IsLeast {t | (Cadence.plainInterval seconds).DueAfter now t} q ∨
        (∀ t, ¬(Cadence.plainInterval seconds).DueAfter now t) ∧ q = Moment.last) := by
  obtain ⟨q, hq⟩ : ∃ q, (Cadence.plainInterval seconds).next (.fixed 0) now = .ok q := by
    unfold Cadence.next Cadence.first
    rw [ZoneClock.utc_localDay]
    show ∃ q, orNever (inCalendar _) = .ok q
    cases now.addSeconds? seconds with
    | none => exact ⟨_, rfl⟩
    | some m => exact ⟨m, rfl⟩
  refine ⟨q, hq, ?_⟩
  rcases Cadence.plain_next_eq_ok hq with e | ⟨hout, rfl⟩
  · left
    constructor
    · refine ⟨?_, e⟩
      rw [Moment.lt_def, e]
      unfold nanosPerSecond
      omega
    · rintro t ⟨-, ht⟩
      rw [Moment.le_def, e, ht]
  · refine .inr ⟨?_, rfl⟩
    rintro t ⟨-, ht⟩
    have hlast := t.le_last
    omega

/-- The next run of an accepted schedule in UTC, whether its zone is named so or the host is set to it,
is the least moment after `now` at which it is due:
on its weekday, on its day of the month or on the last day of a shorter month, or on any day, at its
time of day to the nanosecond, or after its interval.  It is never if the calendar holds no such
moment. -/
theorem next_isLeast_utc [ZoneDatabase] {config : ScheduleConfig} {defaults : ScheduleDefaults}
    {s : Normalized} (h : config.normalize defaults = .ok s)
    (hutc : s.schedule.zone.clock = .fixed 0) (now : Moment) :
    ∃ q, s.schedule.next now = .ok q ∧
      (IsLeast {t | s.schedule.cadence.DueAfter now t} q ∨
        (∀ t, ¬s.schedule.cadence.DueAfter now t) ∧ q = Moment.last) := by
  unfold Schedule.next
  rw [hutc]
  rcases (ScheduleConfig.accepted_of_normalize h).plain_or_follows with
    ⟨seconds, hs, hc⟩ | ⟨l, time, n, hc, -⟩
  · rw [hc]
    exact Cadence.plain_exists_next_utc hs now
  · exact hc.exists_next_utc now

open ZoneTable

/-- a nanosecond before 03:30 on 2024-02-29 the next run of a schedule for the 31st is the one of
that day -/
theorem next_isLeast_utc_february :
    ∃ config defaults s, ScheduleConfig.normalize config defaults = .ok s ∧
      s.schedule.zone = .host ∧ s.schedule.cadence = .monthly 31 ⟨3, 30⟩ 1 ∧
      IsLeast {t | s.schedule.cadence.DueAfter ⟨1709177399999999999, by decide, by decide⟩ t}
        ⟨1709177400000000000, by decide, by decide⟩ ∧
      s.schedule.next ⟨1709177399999999999, by decide, by decide⟩
        = .ok ⟨1709177400000000000, by decide, by decide⟩ := by
  have h : ScheduleConfig.normalize { day := some 31, time := some "03:30" } ⟨86400, .host⟩
      = .ok ⟨⟨.monthly 31 ⟨3, 30⟩ 1, false, .host⟩, [⟨none, .months 1⟩]⟩ := by decide +kernel
  obtain ⟨q, hq, hleast⟩ :=
    next_isLeast_utc h rfl ⟨1709177399999999999, by decide, by decide⟩
  have hdue : (Cadence.monthly 31 ⟨3, 30⟩ 1).DueAfter ⟨1709177399999999999, by decide, by decide⟩
      ⟨1709177400000000000, by decide, by decide⟩ :=
    ⟨by decide, by decide +kernel, ⟨3, 30⟩, rfl, by decide⟩
  replace hleast := hleast.resolve_right fun hnone => hnone.1 _ hdue
  -- no moment lies between the two
  have e : q = ⟨1709177400000000000, by decide, by decide⟩ := by
    have hlt := Moment.lt_def.1 hleast.1.1
    have hle := Moment.le_def.1 (hleast.2 hdue)
    exact Moment.ext_nanos (Int.le_antisymm hle hlt)
  rw [e] at hq hleast
  exact ⟨_, _, _, h, rfl, rfl, hleast, hq⟩

end Rota
