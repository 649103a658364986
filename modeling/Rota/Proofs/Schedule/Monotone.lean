import Rota.Proofs.Schedule.Normalize
import Rota.Proofs.Zone.Changes

/-!
# The next run is monotone

The later the search begins, the later the slot that it finds, with one exception: the slot of a day
on which the search for a reading gave up can come after the slot of the next day.

* `Cadence.next_eq_ok`             what the next run of a cadence on a line is;
* `ZoneClock.Overtaken`            the exception;
* `Cadence.Follows.next_le_next`   the order of two searches;
* `ZoneClock.Overtakes.exists_next`   the exception is met by two searches;
* `next_monotone_iff`            both together.
-/

namespace Rota

open Calendar

theorem orNever_eq_ok {x : Except SlotFault Moment} {p : Moment} (h : orNever x = .ok p) :
    x = .ok p ∨ x = .error .beyondCalendar ∧ p = Moment.last := by
  unfold orNever at h
  split at h
  · rw [Except.ok.injEq] at h
    exact .inr ⟨rfl, h.symm⟩
  · exact .inl h

section
variable {l : DayLine} {z : ZoneClock} {time : TimeOfDay} {c : Cadence} {n : Nat} {now : Moment}
  {p q : Moment} {d k : Int}

theorem DayLine.slot_of_orNever (h : orNever (l.slot z time k) = .ok p) (h0 : firstDay ≤ l.day k)
    (h1 : l.day k ≤ lastDay) : l.slot z time k = .ok p := by
  rcases orNever_eq_ok h with h | ⟨hout, -⟩
  · exact h
  · rcases slot_error hout with e | ⟨-, hnot⟩
    · exact nomatch e
    · exact absurd ⟨h0, h1⟩ hnot

namespace Cadence

theorem next_eq (hc : c.Follows l time n) (hd : z.localDay now = .ok d)
    (hk : l.IsFirst z time now (l.start d) k) : c.next z now = orNever (l.slot z time k) := by
  rw [next, first_eq_slot hc hd hk]

theorem next_eq_ok (hc : c.Follows l time n) (h : c.next z now = .ok p) :
    ∃ d k, z.localDay now = .ok d ∧ l.IsFirst z time now (l.start d) k ∧
      orNever (l.slot z time k) = .ok p := by
  cases hd : z.localDay now with
  | error e =>
    rw [next, first, hd, ZoneClock.localDay_error hd] at h
    exact nomatch h
  | ok d =>
    obtain ⟨k, hk⟩ := l.exists_isFirst z time now (l.start d)
    rw [next_eq hc hd hk] at h
    exact ⟨d, k, rfl, hk, h⟩

end Cadence

/-! ## plain intervals -/

theorem Cadence.plain_next_eq_ok {seconds : Nat}
    (h : (Cadence.plainInterval seconds).next z now = .ok p) :
    p.nanos = now.nanos + seconds * nanosPerSecond ∨
      lastNano < now.nanos + seconds * nanosPerSecond ∧ p = Moment.last := by
  have hin : orNever (inCalendar (now.addSeconds? seconds)) = .ok p := by
    cases hd : z.localDay now with
    | error e =>
      rw [next, first, hd, ZoneClock.localDay_error hd] at h
      exact nomatch h
    | ok d =>
      rw [next, first, hd] at h
      exact h
  cases hm : now.addSeconds? seconds with
  | none =>
    have hout := Moment.ofNanos?_eq_none_iff.1 hm
    have hfirst := now.first_le
    rw [hm] at hin
    refine .inr ⟨by unfold nanosPerSecond at *; omega, (Except.ok.inj hin).symm⟩
  | some m =>
    rw [hm] at hin
    rw [← Except.ok.inj hin]
    exact .inl (Moment.ofNanos?_eq_some_iff.1 hm)

theorem Cadence.plain_next_le {seconds : Nat} {a b : Moment} (hab : a ≤ b)
    (ha : (Cadence.plainInterval seconds).next z a = .ok p)
    (hb : (Cadence.plainInterval seconds).next z b = .ok q) : p ≤ q := by
  rw [Moment.le_def] at *
  rcases plain_next_eq_ok hb with eq | ⟨-, rfl⟩
  · have hlast := q.le_last
    rcases plain_next_eq_ok ha with ep | ⟨hp, -⟩ <;> omega
  · exact p.le_last

end

/-! ## the exception -/

/-- the search for the slot `p` of a day gives up, and it comes after the slot `q` of the next day,
which is still ahead at a moment of that day -/
structure ZoneClock.Overtakes (z : ZoneClock) (time : TimeOfDay) (d : Int) (p q now : Moment) :
    Prop where
  gives : z.GivesUp (DayLine.daily.wall time d)
  slot : DayLine.daily.slot z time d = .ok p
  slot_succ : DayLine.daily.slot z time (d + 1) = .ok q
  localDay : z.localDay now = .ok (d + 1)
  ahead : now < q
  lt : q < p

def ZoneClock.Overtaken (z : ZoneClock) (time : TimeOfDay) : Prop :=
  ∃ d p q now, z.Overtakes time d p q now

/-- at the moment `now` the run of a daily cadence at `p` is overtaken -/
def Cadence.OvertakenAt (z : ZoneClock) (c : Cadence) (now p : Moment) : Prop :=
  ∃ time seconds d q, c = .dailyTime time seconds ∧ z.Overtakes time d p q now

theorem Cadence.not_overtakenAt {z : ZoneClock} {c : Cadence} {now p : Moment}
    (h : ∀ time seconds, c ≠ .dailyTime time seconds) : ¬c.OvertakenAt z now p := by
  rintro ⟨time, seconds, d, q, hc, -⟩
  exact h time seconds hc

/-! ## two searches -/

theorem Cadence.Follows.daily_or_gap {c : Cadence} {l : DayLine} {time : TimeOfDay} {n : Nat}
    (hc : c.Follows l time n) :
    (l = .daily ∧ n = 1 ∧ ∃ seconds, c = .dailyTime time seconds) ∨ 7 ≤ l.gap := by
  cases hc with
  | daily _ seconds => exact .inl ⟨rfl, rfl, seconds, rfl⟩
  | weekly weekday _ weeks => exact .inr (Int.le_refl 7)
  | monthly h _ months => exact .inr (show (7 : Int) ≤ 28 by decide)

section
variable {l : DayLine} {z : ZoneClock} (hz : z.Regular) {time : TimeOfDay} {c : Cadence} {n : Nat}
  {a b p q : Moment} {d e i j : Int}
include hz

/-- a search does not end before the day at which one from an earlier moment begins, also if the
clock was set back between the two -/
theorem DayLine.start_le_of_isFirst (hab : a ≤ b) (ha : z.localDay a = .ok d)
    (hb : z.localDay b = .ok e) (hj : l.IsFirst z time b (l.start e) j)
    (hq : l.slot z time j = .ok q) : l.start d ≤ j := by
  by_contra hs
  have hed : e < d := by
    by_contra hle
    have h0 := l.start_mono (show d ≤ e by omega)
    have h1 := hj.le
    omega
  have hqb := DayLine.slot_le_of_setBack hz hab ha hb hed hq (l.day_lt (by omega))
  exact absurd hqb (not_le.2 (hj.after q hq))

variable (hc : c.Follows l time n)
include hc

/-- a search that ends further on the line than a slot ends with a later one, unless the slot is
overtaken -/
theorem Cadence.Follows.slot_le_of_lt (hfirst : firstDay ≤ l.day i) (hb : z.localDay b = .ok e)
    (hj : l.IsFirst z time b (l.start e) j) (hp : orNever (l.slot z time i) = .ok p)
    (hq : orNever (l.slot z time j) = .ok q) (hij : i < j) (hover : ¬c.OvertakenAt z b p) :
    p ≤ q := by
  rcases orNever_eq_ok hq with hq | ⟨-, rfl⟩
  case inr => exact p.le_last_moment
  have hij' := l.day_lt_iff.2 hij
  have hmem := DayLine.mem_of_slot hq
  replace hp := DayLine.slot_of_orNever hp hfirst (by omega)
  by_contra hlt
  -- the order of slots leaves one case: the search for the slot of the day before gave up
  obtain ⟨hgives, hnear⟩ : z.GivesUp (l.wall time i) ∧ l.day j < l.day i + 2 := by
    by_contra h
    refine hlt (le_of_lt (DayLine.slot_lt hz.orderly hp hq hij fun hgives => ?_))
    by_contra hnear
    exact h ⟨hgives, by omega⟩
  obtain ⟨rfl, -, seconds, rfl⟩ | hgap := hc.daily_or_gap
  case inr =>
    have := l.add_gap_le hij
    omega
  obtain rfl : j = i + 1 := by
    have hnear' : j < i + 2 := hnear
    omega
  by_cases hs : e ≤ i
  · obtain ⟨m, hm, hle⟩ := hj.before i hs hij
    rw [hp, Except.ok.injEq] at hm
    rw [← hm] at hle
    exact hlt (le_of_lt (lt_of_le_of_lt hle (hj.after q hq)))
  · obtain rfl : e = i + 1 := by
      have hle : e ≤ i + 1 := hj.le
      omega
    exact hover ⟨time, seconds, i, q, rfl, hgives, hp, hq, hb, hj.after q hq, not_le.1 hlt⟩

theorem Cadence.Follows.next_le_next (hab : a ≤ b) (ha : c.next z a = .ok p)
    (hb : c.next z b = .ok q) (hover : ¬c.OvertakenAt z b p) : p ≤ q := by
  obtain ⟨d, i, hd, hi, hp⟩ := Cadence.next_eq_ok hc ha
  obtain ⟨e, j, he, hj, hq⟩ := Cadence.next_eq_ok hc hb
  rcases lt_trichotomy i j with hij | rfl | hij
  · exact hc.slot_le_of_lt hz (hi.firstDay_le hd) he hj hp hq hij hover
  · rw [hp, Except.ok.injEq] at hq
    exact le_of_eq hq
  · rcases orNever_eq_ok hq with hq | ⟨-, rfl⟩
    case inr => exact p.le_last_moment
    -- the earlier search went past this slot, so it is over
    obtain ⟨m, hm, hle⟩ := hi.before j (DayLine.start_le_of_isFirst hz hab hd he hj hq) hij
    rw [hq, Except.ok.injEq] at hm
    rw [← hm] at hle
    exact absurd (le_trans hle hab) (not_le.2 (hj.after q hq))

end

section
variable {z : ZoneClock} (hz : z.Regular) {time : TimeOfDay} {d : Int} {p q now : Moment}
include hz

/-- before a gap that the search does not get over there is a moment at which the search comes to
the day of the gap -/
theorem exists_isFirst_before_gap {t : Int} (hs : z.Skips (DayLine.daily.wall time d) t)
    (hgives : z.GivesUp (DayLine.daily.wall time d)) (hnow : z.localDay now = .ok (d + 1))
    (hp : DayLine.daily.slot z time d = .ok p) (hlt : now < p) :
    ∃ a e, a ≤ now ∧ z.localDay a = .ok e ∧
      DayLine.daily.IsFirst z time a (DayLine.daily.start e) d := by
  have hw := DayLine.daily.wall_bounds time d
  have hday : DayLine.daily.day d = d := rfl
  have hi := hs.interior hz
  have hj : z.offset (t + 1) ≤ z.offset t + 86400 := hz.jump_le t
  have hbefore := hs.before
  have hwide := hs.lt_reading_of_givesUp hz hgives
  have ho := hz.offset_bounds t
  have hr : z.reading t = t + z.offset t := rfl
  have hr' : z.reading (t + 1) = t + 1 + z.offset (t + 1) := rfl
  have hf := firstSecond_eq_firstDay
  have hl := lastSecond_eq_lastDay
  unfold ZoneClock.spacing at hi
  obtain ⟨a, ha⟩ := Moment.exists_atSecond (s := t) (by omega) (by omega)
  have hread : z.localDay a = .ok (z.reading t / 86400) := by
    rw [ZoneClock.localDay_eq_ok_iff, ha.seconds_eq]
    exact ⟨by omega, by omega, rfl⟩
  have hanow : a ≤ now := by
    rw [ha.le_iff]
    by_contra hback
    -- the clock showed the next day before the gap, and was set back: then the reading was shown
    obtain ⟨-, -, enow⟩ := ZoneClock.localDay_eq_ok_iff.1 hnow
    have ho' := hz.offset_bounds now.seconds
    obtain ⟨y, hy, -⟩ := hz.shown_of_setBack (w := DayLine.daily.wall time d) (a := now.seconds)
      (b := t) (by omega) (by omega) (by omega) (by omega) (by omega)
      (by unfold ZoneClock.spacing; omega)
    exact hgives.unshown y hy
  have hself := DayLine.isFirst_of_lt hp (lt_of_le_of_lt hanow hlt)
  refine ⟨a, _, hanow, hread, ?_⟩
  show DayLine.daily.IsFirst z time a (z.reading t / 86400) d
  obtain e | e := (by omega : z.reading t / 86400 = d ∨ z.reading t / 86400 = d - 1)
  · rw [e]
    exact hself
  · rw [e]
    refine ⟨by omega, fun j h0 h1 => ?_, hself.after⟩
    obtain rfl : j = d - 1 := by omega
    -- the slot of the day before is over
    have hmem := ZoneClock.firstDay_le_of_localDay hread
    obtain ⟨m, hm⟩ : ∃ m, DayLine.daily.slot z time (d - 1) = .ok m :=
      DayLine.slot_isOk (by rw [← e]; exact hmem.1) (by show d - 1 < lastDay; omega)
    obtain ⟨y, hy, hyt⟩ := hs.shown_before hz (v := DayLine.daily.wall time (d - 1))
      (by unfold DayLine.wall at *; rw [hday] at *; show _ ≤ (d - 1) * 86400 + _ + _; omega)
      (by unfold DayLine.wall at *; rw [hday] at *; show (d - 1) * 86400 + _ ≤ _; omega)
    obtain ⟨y', hy', hmy⟩ := DayLine.answer_of_slot hm
    have hyy := hy'.eq_of_shown hy
    refine ⟨m, hm, ?_⟩
    rw [hmy.le_iff, ha.seconds_eq]
    omega

theorem exists_isFirst_at_first {t : Int} (hp : DayLine.daily.slot z time d = .ok p)
    (ht : z.reading t = DayLine.daily.wall time d) (hout : t < firstSecond)
    (hlt : Moment.first < p) :
    z.localDay Moment.first = .ok d ∧ DayLine.daily.IsFirst z time Moment.first d d := by
  have hw := DayLine.daily.wall_bounds time d
  have hday : DayLine.daily.day d = d := rfl
  have hmem := DayLine.mem_of_slot hp
  have he := hz.settled_first (t := t) (by unfold ZoneClock.spacing; omega)
  have ho := hz.offset_bounds t
  have hf := firstSecond_eq_firstDay
  have hn := firstSecond_eq
  have hn' := lastSecond_eq
  have hm : Moment.first.AtSecond firstSecond := rfl
  constructor
  · rw [ZoneClock.localDay_eq_ok_iff, hm.seconds_eq]
    unfold ZoneClock.reading at *
    omega
  · exact DayLine.isFirst_of_lt hp hlt

/-- the exception is met: the search on the day before ends with the overtaken slot, and a later
one with the slot that overtakes it -/
theorem ZoneClock.Overtakes.exists_next (h : z.Overtakes time d p q now) (seconds : Nat) :
    (Cadence.dailyTime time seconds).next z now = .ok q ∧
      ∃ a, a ≤ now ∧ (Cadence.dailyTime time seconds).next z a = .ok p := by
  have hc := Cadence.Follows.daily time seconds
  have hnow : now < p := lt_trans h.ahead h.lt
  constructor
  · have hk : DayLine.daily.IsFirst z time now (DayLine.daily.start (d + 1)) (d + 1) :=
      DayLine.isFirst_of_lt h.slot_succ h.ahead
    rw [Cadence.next_eq hc h.localDay hk, h.slot_succ]
    rfl
  · -- a moment before the gap at which the search comes to the day in the end
    suffices ∃ a e, a ≤ now ∧ z.localDay a = .ok e ∧
        DayLine.daily.IsFirst z time a (DayLine.daily.start e) d by
      obtain ⟨a, e, ha, he, hk⟩ := this
      refine ⟨a, ha, ?_⟩
      rw [Cadence.next_eq hc he hk, h.slot]
      rfl
    rcases hz.skips_or_outside h.gives.unshown with ⟨t, ht⟩ | ⟨t, ht, hout | hout⟩
    · exact exists_isFirst_before_gap hz ht h.gives h.localDay h.slot hnow
    · obtain ⟨hd, hk⟩ := exists_isFirst_at_first hz h.slot ht hout
        (lt_of_le_of_lt now.first_le_moment hnow)
      exact ⟨Moment.first, d, now.first_le_moment, hd, hk⟩
    · obtain ⟨s, hs, hps⟩ := DayLine.answer_of_slot h.slot
      obtain ⟨-, hle⟩ := hs.eq_of_givesUp h.gives
      have ho := hz.offset_bounds t
      have hb := (hs.eq_of_givesUp h.gives).1
      unfold ZoneClock.reading at ht
      omega

/-! ## the law and its exception -/

/-- the next run of an accepted schedule is monotone in every regular zone, exactly when it is not
a daily one with a slot that is overtaken -/
theorem next_monotone_iff [ZoneDatabase] {config : ScheduleConfig} {defaults : ScheduleDefaults} {n : Normalized}
    (h : config.normalize defaults = .ok n) :
    (∀ a b p q : Moment, a ≤ b → n.schedule.cadence.next z a = .ok p →
        n.schedule.cadence.next z b = .ok q → p ≤ q) ↔
      ∀ time seconds, n.schedule.cadence = .dailyTime time seconds → ¬z.Overtaken time := by
  constructor
  · rintro hmono time seconds hc ⟨d, p, q, now, ho⟩
    obtain ⟨hq, a, hab, hp⟩ := ho.exists_next hz seconds
    rw [← hc] at hp hq
    exact absurd (hmono a now p q hab hp hq) (not_le.2 ho.lt)
  · intro hgives a b p q hab hp hq
    rcases (ScheduleConfig.accepted_of_normalize h).plain_or_follows with
      ⟨seconds, -, hc⟩ | ⟨l, time, k, hc, -⟩
    · rw [hc] at hp hq
      exact Cadence.plain_next_le hab hp hq
    · refine hc.next_le_next hz hab hp hq ?_
      rintro ⟨time', seconds, d, q', e, ho⟩
      exact hgives time' seconds e ⟨d, p, q', b, ho⟩

end

open ZoneTable

theorem next_monotone_iff_weekly :
    ∃ config defaults n, ScheduleConfig.normalize config defaults = .ok n ∧
      n.schedule.zone = .named .europeBerlin ∧ n.schedule.cadence = .weekly .monday ⟨4, 30⟩ 1 ∧
      NamedZone.europeBerlin.clock.Regular ∧
      ∀ a b p q : Moment, a ≤ b → n.schedule.cadence.next NamedZone.europeBerlin.clock a = .ok p →
        n.schedule.cadence.next NamedZone.europeBerlin.clock b = .ok q → p ≤ q := by
  have hz := NamedZone.europeBerlin_regular
  have h : ScheduleConfig.normalize
      { wday := some (.name "monday"), time := some "04:30", timezone := some "Europe/Berlin" }
      ⟨604800, .host⟩ = .ok ⟨⟨.weekly .monday ⟨4, 30⟩ 1, false, .named .europeBerlin⟩,
        [⟨none, .seconds 604800⟩]⟩ := by decide +kernel
  exact ⟨_, _, _, h, rfl, rfl, hz, (next_monotone_iff hz h).2 nofun⟩

/-! ## a day that was left out -/

/-- Apia left out a whole day, 2011-12-30: the slot at 00:10 of that day comes after the one of the
day that followed -/
theorem pacificApia_overtakes :
    NamedZone.pacificApia.clock.Overtakes ⟨0, 10⟩ 15338
      ⟨1325290200000000000, by decide, by decide⟩ ⟨1325239800000000000, by decide, by decide⟩
      ⟨1325239500000000000, by decide, by decide⟩ where
  gives j hj s hs := by
    have h : ∀ j < 96, NamedZone.pacificApia.clock.earliest?
        (DayLine.daily.wall ⟨0, 10⟩ 15338 + 900 * (j : Nat)) = none := by decide +kernel
    have hs' := hs.earliest
    rw [h j hj] at hs'
    exact nomatch hs'
  slot := by decide +kernel
  slot_succ := by decide +kernel
  localDay := by decide +kernel
  ahead := by decide
  lt := by decide

/-- the next run is not monotone for every schedule -/
theorem not_next_monotone :
    ∃ config defaults n, ScheduleConfig.normalize config defaults = .ok n ∧
      ∃ a b p q : Moment, a ≤ b ∧ n.schedule.next a = .ok p ∧ n.schedule.next b = .ok q ∧
        q < p := by
  obtain ⟨hq, a, hab, hp⟩ := pacificApia_overtakes.exists_next NamedZone.pacificApia_regular
    86400
  exact ⟨{ time := some "00:10", timezone := some "Pacific/Apia" }, ⟨86400, .host⟩,
    ⟨⟨.dailyTime ⟨0, 10⟩ 86400, false, .named .pacificApia⟩, []⟩, by decide +kernel, a, _, _, _,
    hab, hp, hq, pacificApia_overtakes.lt⟩

end Rota
