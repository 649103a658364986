import Rota.Proofs.Schedule.Advance

/-!
# Searches that fail

A search that runs out of the calendar gives `Moment.last`, which means never.  Two things are not
caught: the wall clock can leave the calendar where the moment does not, and on the last day of the
calendar a time of day can lie behind its end.  Then the search fails.

* `ZoneClock.Regular.resolve_lastDay_iff`   the times of day that the last day has;
* `ZoneClock.Regular.localDay_isOk_iff`     the clocks that stay in the calendar;
* `Cadence.Overhangs`         the last day is a date of the cadence, and its time lies behind the end;
* `Cadence.EndsAfter`         one period later the calendar has ended;
* `Cadence.Finds`             a search gives a later slot, or never;
* `Cadence.Follows.finds_next`, `Cadence.Follows.finds_nextAfter`   the searches that do not fail;
* `Cadence.Follows.next_last_of_overhangs`   one that does;
* `Schedule.ReturnsIn`        no search of a schedule fails by a wall clock;
* `returnsIn_iff`             **the clocks and schedules for which this holds**.
-/

namespace Rota

open Calendar

/-! ## the ends of the calendar -/

namespace ZoneClock

section
variable {z : ZoneClock} (hz : z.Regular)
include hz

/-- the last day of the calendar has a time of day if the calendar holds it -/
theorem Regular.resolve_lastDay_iff (time : TimeOfDay) :
    (∃ p, z.resolve lastDay time = .ok p) ↔
      lastDay * 86400 + time.seconds - z.offset lastSecond ≤ lastSecond := by
  have ht := time.seconds_bounds
  have hend := lastSecond_eq_lastDay
  have hfirst : firstSecond + 259200 ≤ lastDay * 86400 := by decide
  constructor
  · rintro ⟨p, hp⟩
    obtain ⟨s, hs, -⟩ := answer_of_resolve (Int.le_refl _) hp
    cases hs with
    | found k hk hle before shown =>
      have hread := hz.shows shown.earliest
      have ho := hz.offset_bounds s
      have hlast := shown.le_last
      have hsame := hz.settled_last (t := s) (by unfold reading at hread; unfold spacing; omega)
      unfold reading at hread
      omega
    | gaveUp _ hle => omega
  · intro hle
    have ho := hz.offset_bounds lastSecond
    have hsame := hz.settled_last (t := lastDay * 86400 + time.seconds - z.offset lastSecond)
      (by unfold spacing; omega)
    obtain ⟨s, hs, -⟩ := hz.orderly.shown_of_reading
      (w := lastDay * 86400 + time.seconds)
      (t := lastDay * 86400 + time.seconds - z.offset lastSecond)
      (by unfold reading; rw [hsame]; omega) (by omega) hle
    obtain ⟨p, hp⟩ := Moment.exists_atSecond hs.first_le hs.le_last
    have hfound : (z.earliest? (lastDay * secondsPerDay + time.seconds)).bind Moment.ofSeconds?
        = some p := by
      rw [show lastDay * secondsPerDay + time.seconds = lastDay * 86400 + time.seconds from rfl,
        hs.earliest, Option.bind_some, Moment.ofSeconds?_eq_some_iff]
      exact hp
    refine ⟨p, ?_⟩
    rw [resolve, show gapTries = 95 + 1 from rfl, momentOf, hfound]

theorem Regular.localDay_isOk_iff :
    (∀ m : Moment, ∃ d, z.localDay m = .ok d) ↔
      0 ≤ z.offset firstSecond ∧ z.offset lastSecond ≤ 0 := by
  have hfirst : Moment.first.seconds = firstSecond := by decide
  have hlast : Moment.last.seconds = lastSecond := by decide
  constructor
  · intro h
    obtain ⟨d, hd⟩ := h Moment.first
    obtain ⟨e, he⟩ := h Moment.last
    obtain ⟨h0, -, -⟩ := localDay_eq_ok_iff.1 hd
    obtain ⟨-, h1, -⟩ := localDay_eq_ok_iff.1 he
    rw [hfirst] at h0
    rw [hlast] at h1
    unfold reading at h0 h1
    omega
  · rintro ⟨h0, h1⟩ m
    have hm := m.seconds_mem
    have ho := hz.offset_bounds m.seconds
    have hspan : firstSecond + 259200 + 259200 ≤ lastSecond := by decide
    refine ⟨z.reading m.seconds / 86400, localDay_eq_ok_iff.2 ⟨?_, ?_, rfl⟩⟩
    · by_cases hnear : m.seconds ≤ firstSecond + spacing
      · rw [reading, hz.settled_first hnear]
        omega
      · unfold spacing at hnear
        unfold reading
        omega
    · by_cases hnear : lastSecond - spacing ≤ m.seconds
      · rw [reading, hz.settled_last hnear]
        omega
      · unfold spacing at hnear
        unfold reading
        omega

end

end ZoneClock

namespace Cadence

/-! ## what a search is to give -/

/-- the last day of the calendar is a date of the cadence, and the calendar ends before its time of
day -/
def Overhangs (z : ZoneClock) (c : Cadence) : Prop :=
  c.IsOn lastDay ∧ ∃ time, c.time? = some time ∧
    lastSecond < lastDay * 86400 + time.seconds - z.offset lastSecond

/-- a slot of the cadence: on one of its dates, or after so many intervals from `base` on -/
def IsSlot (z : ZoneClock) (base : Moment) : Cadence → Moment → Prop
  | .plainInterval seconds, t =>
    ∃ k : Nat, 1 ≤ k ∧ t.nanos = base.nanos + k * seconds * nanosPerSecond
  | c, t => ∃ d, c.SlotOn z d t

def EndsAfter (z : ZoneClock) (base : Moment) : Cadence → Prop
  | .plainInterval seconds => lastNano < base.nanos + seconds * nanosPerSecond
  | .dailyTime _ _ => ∃ d, z.localDay base = .ok d ∧ lastDay < d + 1
  | .weekly weekday _ weeks =>
    ∃ d, z.localDay base = .ok d ∧ lastDay < d - daysBack weekday d + 7 * weeks
  | .monthly _ _ months => ∃ d, z.localDay base = .ok d ∧ lastMonth < monthOfDay d + months

def Finds (z : ZoneClock) (c : Cadence) (base bound : Moment) (r : Except SlotFault Moment) :
    Prop :=
  ∃ q, r = .ok q ∧ (c.IsSlot z base q ∧ bound < q ∨ q = Moment.last)

section
variable {z : ZoneClock} {c : Cadence} {l : DayLine} {time : TimeOfDay} {n : Nat}
  {base bound now : Moment} {i d : Int}

theorem finds_last : c.Finds z base bound (.ok Moment.last) := ⟨Moment.last, rfl, .inr rfl⟩

theorem next_of_localDay_error {e : SlotFault} (hd : z.localDay now = .error e) :
    c.next z now = .error .wallClock := by
  rw [next, first, hd, ZoneClock.localDay_error hd]
  rfl

/-! ## plain intervals -/

theorem plain_finds_next {seconds : Nat} (hs : 1 ≤ seconds) (hd : z.localDay now = .ok d) :
    (plainInterval seconds).Finds z now now ((plainInterval seconds).next z now) := by
  have hnext : (plainInterval seconds).next z now
      = orNever (inCalendar (now.addSeconds? seconds)) := by
    rw [next, first, hd]
    rfl
  rw [hnext]
  cases hm : now.addSeconds? seconds with
  | none => exact finds_last
  | some m =>
    have hplain : m.nanos = now.nanos + seconds * nanosPerSecond :=
      Moment.ofNanos?_eq_some_iff.1 hm
    refine ⟨m, rfl, .inl ⟨⟨1, Nat.le_refl 1, by rw [hplain, Int.natCast_one, Int.one_mul]⟩, ?_⟩⟩
    unfold nanosPerSecond at hplain
    exact Moment.lt_def.2 (by omega)

theorem plain_finds_nextAfter {seconds : Nat} (hs : 1 ≤ seconds) (p started now : Moment) :
    (plainInterval seconds).Finds z p (min started now)
      ((plainInterval seconds).nextAfter z ⟨p, started, .scheduled⟩ now) := by
  show (plainInterval seconds).Finds z p (min started now)
    (orNever (followingPlain seconds ⟨p, started, .scheduled⟩))
  cases h : followingPlain seconds ⟨p, started, .scheduled⟩ with
  | error e =>
    rw [followingPlain_error h]
    exact finds_last
  | ok q =>
    obtain ⟨hslot, hafter⟩ := followingPlain_eq_ok hs h
    exact ⟨q, rfl, .inl ⟨hslot, lt_of_le_of_lt (min_le_left ..) hafter⟩⟩

/-! ## the end of the calendar -/

theorem step_of_endsAfter (h : c.EndsAfter z base) (hd : z.localDay base = .ok d) :
    c.step z base = .error .beyondCalendar := by
  have hday {e : Int} (he : z.localDay base = .ok e) : e = d := Except.ok.inj (he.symm.trans hd)
  unfold step
  rw [hd]
  cases c with
  | plainInterval seconds =>
    have hout : base.addSeconds? seconds = none := Moment.ofNanos?_eq_none_iff.2 (.inr h)
    exact congrArg inCalendar hout
  | dailyTime time seconds =>
    obtain ⟨_, he, hlt⟩ := h
    rw [hday he] at hlt
    exact if_neg fun hmem => not_le.2 hlt hmem.2
  | weekly weekday time weeks =>
    obtain ⟨_, he, hlt⟩ := h
    rw [hday he] at hlt
    show (if firstDay ≤ d - daysBack weekday d then
      onDay z time (d - daysBack weekday d + 7 * weeks) else _) = _
    split
    case isTrue => exact if_neg fun hmem => not_le.2 hlt hmem.2
    case isFalse => rfl
  | monthly day time months =>
    obtain ⟨_, he, hlt⟩ := h
    rw [hday he] at hlt
    exact if_neg fun hmem => not_le.2 hlt hmem.2

/-- after the last slot of the calendar comes never -/
theorem Accepted.nextAfter_of_endsAfter (hc : c.Accepted) (h : c.EndsAfter z base)
    (started now : Moment) :
    c.nextAfter z ⟨base, started, .scheduled⟩ now = .ok Moment.last := by
  show orNever (c.following z ⟨base, started, .scheduled⟩ now) = _
  rcases hc.plain_or_follows with ⟨seconds, -, rfl⟩ | ⟨l, time, n, hf, -⟩
  · have hout : base.addSeconds? seconds = none := Moment.ofNanos?_eq_none_iff.2 (.inr h)
    show orNever (followingPlain seconds ⟨base, started, .scheduled⟩) = _
    unfold followingPlain
    rw [hout]
    rfl
  · have hd : ∃ d, z.localDay base = .ok d := by
      cases hf <;> exact h.imp fun _ => And.left
    obtain ⟨d, hd⟩ := hd
    rw [hf.following_eq, step_of_endsAfter h hd]
    rfl

/-! ## lines of days -/

section
variable (hz : z.Regular) (hc : c.Follows l time n)
include hz hc

theorem Follows.overhangs_iff :
    c.Overhangs z ↔ ∃ i, l.day i = lastDay ∧ ¬∃ p, l.slot z time i = .ok p := by
  unfold Overhangs
  rw [hc.isOn_iff, hc.time?_eq]
  have hslot {i : Int} (hi : l.day i = lastDay) : (∃ p, l.slot z time i = .ok p) ↔
      lastDay * 86400 + time.seconds - z.offset lastSecond ≤ lastSecond := by
    rw [DayLine.slot_of_mem (by rw [hi]; decide) (by rw [hi]), hi]
    exact hz.resolve_lastDay_iff time
  constructor
  · rintro ⟨⟨i, hi⟩, time', e, hlt⟩
    rw [Option.some.injEq] at e
    subst e
    exact ⟨i, hi, fun h => absurd ((hslot hi).1 h) (not_le.2 hlt)⟩
  · rintro ⟨i, hi, hnone⟩
    exact ⟨⟨i, hi⟩, time, rfl, not_le.1 fun hle => hnone ((hslot hi).2 hle)⟩

theorem Follows.slot_or (hover : ¬c.Overhangs z) (hfirst : firstDay ≤ l.day i) :
    (∃ p, l.slot z time i = .ok p) ∨ l.slot z time i = .error .beyondCalendar := by
  rcases lt_trichotomy (l.day i) lastDay with hlt | heq | hgt
  · exact .inl (DayLine.slot_isOk hfirst hlt)
  · by_contra hnone
    exact hover ((hc.overhangs_iff hz).2 ⟨i, heq, fun h => hnone (.inl h)⟩)
  · exact .inr (DayLine.slot_of_lt hgt)

theorem Follows.finds_slot (hover : ¬c.Overhangs z) (hfirst : firstDay ≤ l.day i)
    (hafter : ∀ q, l.slot z time i = .ok q → bound < q) :
    c.Finds z base bound (orNever (l.slot z time i)) := by
  rcases hc.slot_or hz hover hfirst with ⟨q, hq⟩ | hout
  · have hslot : c.SlotOn z (l.day i) q := hc.slotOn_iff.2 ⟨i, rfl, hq⟩
    refine ⟨q, by rw [hq]; rfl, .inl ⟨?_, hafter q hq⟩⟩
    cases hc <;> exact ⟨_, hslot⟩
  · rw [hout]
    exact finds_last

theorem Follows.finds_next (hover : ¬c.Overhangs z) (hd : z.localDay now = .ok d) :
    c.Finds z now now (c.next z now) := by
  obtain ⟨k, hk⟩ := l.exists_isFirst z time now (l.start d)
  rw [next_eq hc hd hk]
  exact hc.finds_slot hz hover (hk.firstDay_le hd) hk.after

theorem Follows.finds_nextAfter (hn : 1 ≤ n) (hover : ¬c.Overhangs z) {p : Moment}
    (hd : z.localDay p = .ok d) (started now : Moment) :
    c.Finds z p (min started now) (c.nextAfter z ⟨p, started, .scheduled⟩ now) := by
  show c.Finds z p (min started now) (orNever (c.following z ⟨p, started, .scheduled⟩ now))
  rcases hc.exists_following hn hz hd started now with h | ⟨j, hj, h, hafter⟩
  · rw [h]
    exact finds_last
  · rw [h]
    have hfirst := (ZoneClock.firstDay_le_of_localDay hd).1
    exact hc.finds_slot hz hover (by omega) hafter

/-- at the end of the calendar the search comes to the last day, which has no slot -/
theorem Follows.next_last_of_overhangs (hover : c.Overhangs z)
    (hd : z.localDay Moment.last = .ok d) : c.next z Moment.last = .error .wallClock := by
  obtain ⟨i, hi, hnone⟩ := (hc.overhangs_iff hz).1 hover
  obtain ⟨k, hk⟩ := l.exists_isFirst z time Moment.last (l.start d)
  have hdays := ZoneClock.firstDay_le_of_localDay hd
  have hfirst := hk.firstDay_le hd
  -- the days before the last one have slots, and none of them lies behind the end
  have hki : k = i := by
    rcases lt_trichotomy k i with hlt | heq | hgt
    · have hday := l.day_lt_iff.2 hlt
      obtain ⟨p, hp⟩ : ∃ p, l.slot z time k = .ok p := DayLine.slot_isOk hfirst (by omega)
      exact absurd (hk.after p hp) (not_lt.2 p.le_last)
    · exact heq
    · have hstart : l.start d ≤ i := by
        by_contra hlt
        have hday := l.day_lt (not_le.1 hlt)
        omega
      obtain ⟨p, hp, -⟩ := hk.before i hstart hgt
      exact absurd ⟨p, hp⟩ hnone
  rw [next_eq hc hd hk, hki]
  cases hslot : l.slot z time i with
  | ok p => exact absurd ⟨p, hslot⟩ hnone
  | error e =>
    rcases DayLine.slot_error hslot with rfl | ⟨-, hout⟩
    · rfl
    · exact absurd ⟨by rw [hi]; decide, by rw [hi]⟩ hout

end

end

end Cadence

/-! ## the searches of a schedule -/

namespace Schedule

variable [ZoneDatabase]

/-- by this wall clock every search of the schedule gives a moment: at any time, and for a run of any
slot, whenever it started and ended -/
structure ReturnsIn (z : ZoneClock) (s : Schedule) : Prop where
  next : ∀ now, s.cadence.Finds z now now (s.cadence.next z now)
  initial : ∀ now, if s.runOnStart then s.initialIn z now = .ok now
    else s.cadence.Finds z now now (s.initialIn z now)
  startup : ∀ slot started now,
    s.cadence.Finds z now now (s.cadence.nextAfter z ⟨slot, started, .startup⟩ now)
  scheduled : ∀ slot started now, s.cadence.Finds z slot (min started now)
    (s.cadence.nextAfter z ⟨slot, started, .scheduled⟩ now)
  ends : ∀ slot started now, s.cadence.EndsAfter z slot →
    s.cadence.nextAfter z ⟨slot, started, .scheduled⟩ now = .ok Moment.last

theorem ReturnsIn.of_finds {z : ZoneClock} {s : Schedule} (hc : s.cadence.Accepted)
    (hnext : ∀ now, s.cadence.Finds z now now (s.cadence.next z now))
    (hafter : ∀ slot started now, s.cadence.Finds z slot (min started now)
      (s.cadence.nextAfter z ⟨slot, started, .scheduled⟩ now)) : s.ReturnsIn z where
  next := hnext
  initial now := by
    unfold initialIn
    split
    case isTrue => rfl
    case isFalse => exact hnext now
  startup _ _ now := hnext now
  scheduled := hafter
  ends _ started now h := hc.nextAfter_of_endsAfter h started now

end Schedule

/-- Every search of an accepted schedule gives a slot after the moment from which it was looked for, or
never, exactly when the wall clock stays in the calendar and the time of day of a date of the schedule
does not lie behind its end. -/
theorem returnsIn_iff [ZoneDatabase] {config : ScheduleConfig} {defaults : ScheduleDefaults}
    {s : Normalized} (h : config.normalize defaults = .ok s) {z : ZoneClock} (hz : z.Regular) :
    s.schedule.ReturnsIn z ↔ (0 ≤ z.offset firstSecond ∧ z.offset lastSecond ≤ 0) ∧
      ¬s.schedule.cadence.Overhangs z := by
  have hc := ScheduleConfig.accepted_of_normalize h
  rw [← hz.localDay_isOk_iff]
  constructor
  · intro hr
    have hday (m : Moment) : ∃ d, z.localDay m = .ok d := by
      obtain ⟨q, hq, -⟩ := hr.next m
      cases hd : z.localDay m with
      | ok d => exact ⟨d, rfl⟩
      | error e =>
        rw [Cadence.next_of_localDay_error hd] at hq
        exact nomatch hq
    refine ⟨hday, fun hover => ?_⟩
    obtain ⟨time, ht, -⟩ := hover.2
    obtain ⟨l, n, hf, -⟩ := hc.exists_follows ht
    obtain ⟨d, hd⟩ := hday Moment.last
    obtain ⟨q, hq, -⟩ := hr.next Moment.last
    rw [hf.next_last_of_overhangs hz hover hd] at hq
    exact nomatch hq
  · rintro ⟨hday, hover⟩
    rcases hc.plain_or_follows with ⟨seconds, hs, e⟩ | ⟨l, time, n, hf, hn⟩
    · refine .of_finds hc (fun now => ?_) (fun slot started now => ?_)
      · obtain ⟨d, hd⟩ := hday now
        rw [e]
        exact Cadence.plain_finds_next hs hd
      · rw [e]
        exact Cadence.plain_finds_nextAfter hs slot started now
    · refine .of_finds hc (fun now => ?_) (fun slot started now => ?_)
      · obtain ⟨d, hd⟩ := hday now
        exact hf.finds_next hz hover hd
      · obtain ⟨d, hd⟩ := hday slot
        exact hf.finds_nextAfter hz hn hover hd started now

open ZoneTable

/-- a daily schedule in UTC, by its own wall clock -/
theorem returnsIn_iff_daily :
    ∃ config defaults s, ScheduleConfig.normalize config defaults = .ok s ∧
      s.schedule.zone.clock.Regular ∧ s.schedule.ReturnsIn s.schedule.zone.clock := by
  have hz := NamedZone.utc_regular
  have h : ScheduleConfig.normalize { time := some "05:30", timezone := some "UTC" }
      ⟨86400, .host⟩ = .ok ⟨⟨.dailyTime ⟨5, 30⟩ 86400, false, .named .utc⟩, []⟩ := by
    decide +kernel
  refine ⟨_, _, _, h, hz, (returnsIn_iff h hz).2 ⟨by decide +kernel, ?_⟩⟩
  rintro ⟨-, time, e, hlt⟩
  rw [← Option.some.inj e] at hlt
  exact absurd hlt (by decide +kernel)

/-- The last day of the calendar has no 20:00 on a wall clock that is five hours behind.  At noon of
that day the search fails, and it does not give never. -/
theorem not_returnsIn :
    ∃ config defaults s, ScheduleConfig.normalize config defaults = .ok s ∧
      s.schedule.next ⟨8210266833600000000000, by decide, by decide⟩ = .error .wallClock ∧
      ¬s.schedule.ReturnsIn s.schedule.zone.clock := by
  have h : ScheduleConfig.normalize { time := some "20:00", timezone := some "Etc/GMT+5" }
      ⟨86400, .host⟩ = .ok ⟨⟨.dailyTime ⟨20, 0⟩ 86400, false, .named .etcGmtPlusFive⟩, []⟩ := by
    decide +kernel
  have hfault : (Schedule.mk (.dailyTime ⟨20, 0⟩ 86400) false (.named .etcGmtPlusFive)).next
      ⟨8210266833600000000000, by decide, by decide⟩ = .error .wallClock := by
    decide +kernel
  refine ⟨_, _, _, h, hfault, fun hr => ?_⟩
  obtain ⟨q, hq, -⟩ := hr.next ⟨8210266833600000000000, by decide, by decide⟩
  exact nomatch hfault.symm.trans hq

end Rota
