import Rota.Proofs.Schedule.Prompt
import Rota.Proofs.Schedule.Utc
import Mathlib.Logic.Relation

/-!
# The grid of a cadence

In UTC the slots after a slot are whole periods away from it: so many days or weeks, or so many
months, on the same day of the month or on the last one of a shorter month.  However late a run
starts and however long it takes, the next one is on this grid.

* `DayLine.IsNext`            the first slot after a moment, in steps of a period;
* `Cadence.catchUp_eq_slot`   stepping over missed slots ends with it;
* `Cadence.OnGrid`            the grid of a slot;
* `Schedule.Leads`            a run at one moment can be followed by a run at another;
* `nextAfter_isLeast_grid`    the run after a firing is the first one on the grid that was not due
  when the firing started or when it ended.
-/

namespace Rota

open Calendar

/-! ## catching up along a line -/

/-- `k` steps of `n` days of the line after the day `i` comes the first slot after `bound`, unless
there is no slot any more -/
structure DayLine.IsNext (l : DayLine) (z : ZoneClock) (time : TimeOfDay) (bound : Moment) (n : Nat)
    (i : Int) (k : Nat) : Prop where
  before : ∀ m : Nat, m < k → ∃ p, l.slot z time (i + m * n) = .ok p ∧ p ≤ bound
  after : ∀ p, l.slot z time (i + k * n) = .ok p → bound < p

section
variable {l : DayLine} {z : ZoneClock} {time : TimeOfDay} {c : Cadence} {n : Nat} {bound : Moment}
  {i : Int} {p : Moment}

theorem add_succ_mul (i : Int) (k n : Nat) : i + ((k + 1 : Nat) : Int) * n = i + n + k * n := by
  rw [Int.natCast_add_one, Int.add_mul, Int.one_mul, Int.add_assoc, Int.add_comm (k * n : Int)]

theorem add_zero_mul (i : Int) (n : Nat) : i + ((0 : Nat) : Int) * n = i := by
  rw [Int.natCast_zero, Int.zero_mul, Int.add_zero]

theorem DayLine.isNext_zero (h : ∀ p, l.slot z time i = .ok p → bound < p) :
    l.IsNext z time bound n i 0 := by
  refine ⟨fun m hm => absurd hm (Nat.not_lt_zero m), ?_⟩
  rwa [add_zero_mul]

theorem DayLine.isNext_of_error {e : SlotFault} (h : l.slot z time i = .error e) :
    l.IsNext z time bound n i 0 := by
  apply DayLine.isNext_zero
  intro p hp
  rw [h] at hp
  cases hp

theorem DayLine.IsNext.succ {k : Nat} (hp : l.slot z time i = .ok p) (hle : p ≤ bound)
    (h : l.IsNext z time bound n (i + n) k) : l.IsNext z time bound n i (k + 1) := by
  constructor
  · intro m hm
    cases m with
    | zero => exact ⟨p, by rwa [add_zero_mul], hle⟩
    | succ m =>
      rw [add_succ_mul]
      exact h.before m (by omega)
  · rw [add_succ_mul]
    exact h.after

theorem DayLine.IsNext.le {k m : Nat} (h : l.IsNext z time bound n i k)
    (hp : l.slot z time (i + m * n) = .ok p) (hlt : bound < p) : i + k * n ≤ i + m * n := by
  have hkm : k ≤ m := by
    by_contra hlt'
    obtain ⟨p', hp', hle⟩ := h.before m (by omega)
    rw [hp, Except.ok.injEq] at hp'
    rw [← hp'] at hle
    exact absurd hle (not_le.2 hlt)
  have hmul := Nat.mul_le_mul_right n hkm
  rw [← Int.natCast_mul, ← Int.natCast_mul]
  omega

variable (hn : 1 ≤ n)
  (hstep : ∀ i p, l.slot z time i = .ok p → c.step z p = l.slot z time (i + n))
include hn hstep

/-- stepping over missed slots ends with the first slot that was not due when the run started or
when it ended; the days that are left of the calendar are fuel enough -/
theorem Cadence.catchUp_eq_slot {started now : Moment} {fuel : Nat}
    (hp : l.slot z time i = .ok p) (hfuel : lastDay < l.day i + fuel) :
    ∃ k : Nat, l.IsNext z time (min started now) n i k ∧
      c.catchUp z started now fuel p = l.slot z time (i + k * n) := by
  induction fuel generalizing i p with
  | zero =>
    have hmem := DayLine.mem_of_slot hp
    omega
  | succ fuel ih =>
    rw [Cadence.catchUp]
    by_cases hdue : p ≤ now ∧ p ≤ started
    · rw [if_pos hdue, hstep i p hp]
      have hle : p ≤ min started now := le_min hdue.2 hdue.1
      cases hq : l.slot z time (i + n) with
      | error e =>
        have hend : l.IsNext z time (min started now) n (i + n) 0 := DayLine.isNext_of_error hq
        exact ⟨1, hend.succ hp hle, by rw [add_succ_mul, add_zero_mul, hq]⟩
      | ok q =>
        have hday := l.add_gap_le (show i < i + n by omega)
        have hpos := l.gap_pos
        obtain ⟨k, hk, e⟩ := ih hq (by omega)
        exact ⟨k + 1, hk.succ hp hle, by rw [add_succ_mul]; exact e⟩
    · rw [if_neg hdue]
      refine ⟨0, DayLine.isNext_zero fun q hq => ?_, by rw [add_zero_mul, hp]⟩
      rw [hp, Except.ok.injEq] at hq
      subst hq
      exact not_le.1 fun hle =>
        hdue ⟨le_trans hle (min_le_right ..), le_trans hle (min_le_left ..)⟩

theorem Cadence.Follows.following_eq_slot (hc : c.Follows l time n) (hp : l.slot z time i = .ok p)
    (started now : Moment) :
    ∃ k : Nat, l.IsNext z time (min started now) n (i + n) k ∧
      c.following z ⟨p, started, .scheduled⟩ now = l.slot z time (i + n + k * n) := by
  rw [hc.following_eq, hstep i p hp]
  cases hq : l.slot z time (i + n) with
  | error e => exact ⟨0, DayLine.isNext_of_error hq, by rw [add_zero_mul, hq]⟩
  | ok q =>
    have hmem := (DayLine.mem_of_slot hq).1
    have hspan : lastDay < firstDay + Cadence.catchUpFuel := by decide
    exact Cadence.catchUp_eq_slot hn hstep hq (by omega)

end

/-! ## the grid of a slot -/

/-- `g` lies `k` periods after the slot `s`, in UTC: so many days, or so many weeks, or on the day
of the month, or on the month's last one, so many months later -/
def Cadence.GridAt (c : Cadence) (s : Moment) (k : Nat) (g : Moment) : Prop :=
  match c with
  | .weekly _ _ weeks => g.nanos = s.nanos + k * weeks * 7 * (secondsPerDay * nanosPerSecond)
  | .monthly day time months =>
    monthIndex g.date.year g.date.month = monthIndex s.date.year s.date.month + k * months ∧
      g.date.day = min day (monthLength g.date.year g.date.month) ∧ g.IsAt time
  | .dailyTime _ _ => g.nanos = s.nanos + k * (secondsPerDay * nanosPerSecond)
  | .plainInterval _ => False

/-- the grid of a slot: the moments one period after it, two periods, and so on -/
def Cadence.OnGrid (c : Cadence) (s g : Moment) : Prop := ∃ k, 1 ≤ k ∧ c.GridAt s k g

section
variable {c : Cadence} {l : DayLine} {time : TimeOfDay} {n : Nat} (hc : c.Follows l time n)
  {i : Int} {s : Moment} (hs : l.slot (.fixed 0) time i = .ok s)
include hc hs

theorem Cadence.Follows.gridAt_iff {k : Nat} {g : Moment} :
    c.GridAt s k g ↔ l.slot (.fixed 0) time (i + k * n) = .ok g := by
  rw [ZoneClock.utc_slot_iff] at hs ⊢
  cases hc with
  | daily =>
    have hwall : DayLine.daily.wall time (i + k * (1 : Nat))
        = DayLine.daily.wall time i + k * 86400 := by
      show (i + k * (1 : Nat)) * 86400 + time.seconds = i * 86400 + time.seconds + k * 86400
      omega
    show g.nanos = s.nanos + k * (secondsPerDay * nanosPerSecond) ↔ _
    rw [hwall]
    unfold Moment.AtSecond secondsPerDay nanosPerSecond at *
    omega
  | weekly weekday =>
    have hwall : (DayLine.weekly weekday).wall time (i + k * n)
        = (DayLine.weekly weekday).wall time i + k * n * 7 * 86400 := by
      show (7 * (i + (k : Int) * n) + weekday.number - 4) * 86400 + time.seconds
        = (7 * i + weekday.number - 4) * 86400 + time.seconds + k * n * 7 * 86400
      generalize (k : Int) * n = x
      omega
    show g.nanos = s.nanos + k * n * 7 * (secondsPerDay * nanosPerSecond) ↔ _
    rw [hwall]
    unfold Moment.AtSecond secondsPerDay nanosPerSecond at *
    generalize (k : Int) * n = x
    omega
  | @monthly day h =>
    have hplace : monthOfDay s.day = i := by
      rw [(Moment.atSecond_iff.1 hs).1]
      exact monthOfDay_clampedDay i h
    have hg : (DayLine.monthly day h).wall time (i + k * n)
        = (DayLine.monthly day h).day (i + k * n) * 86400 + time.seconds := rfl
    rw [hg, Moment.atSecond_iff]
    show monthOfDay g.day = monthOfDay s.day + k * n ∧ _ ∧ _ ↔ _
    rw [hplace]
    constructor
    · rintro ⟨hmonth, hday, ht⟩
      obtain ⟨j, hj⟩ := (DayLine.exists_monthly_day h g.day).2 hday
      have hindex : monthOfDay g.day = j := by
        rw [← hj]
        exact monthOfDay_clampedDay j h
      rw [← hmonth, hindex]
      exact ⟨hj.symm, ht⟩
    · rintro ⟨hday, ht⟩
      refine ⟨?_, (DayLine.exists_monthly_day h g.day).1 ⟨_, hday.symm⟩, ht⟩
      rw [hday]
      exact monthOfDay_clampedDay _ h

theorem Cadence.Follows.onGrid_iff {g : Moment} :
    c.OnGrid s g ↔ ∃ k : Nat, l.slot (.fixed 0) time (i + n + k * n) = .ok g := by
  simp only [Cadence.OnGrid, hc.gridAt_iff hs]
  constructor
  · rintro ⟨k, hk, hg⟩
    obtain ⟨k, rfl⟩ : ∃ k', k = k' + 1 := ⟨k - 1, by omega⟩
    rw [add_succ_mul] at hg
    exact ⟨k, hg⟩
  · rintro ⟨k, hg⟩
    rw [← add_succ_mul] at hg
    exact ⟨k + 1, by omega, hg⟩

omit hs in
theorem Cadence.Follows.step_utc {p : Moment} (hp : l.slot (.fixed 0) time i = .ok p) :
    c.step (.fixed 0) p = l.slot (.fixed 0) time (i + n) := by
  have hday : p.day = l.day i := (Moment.atSecond_iff.1 (ZoneClock.utc_slot_iff.1 hp)).1
  refine hc.step_of_localDay hp ?_
  rw [ZoneClock.utc_localDay, hday]

end

/-! ## the run after a firing -/

/-- the moments on the grid of the slot `s` that come after it and after `bound` -/
def Cadence.GridAfter (c : Cadence) (s bound g : Moment) : Prop :=
  c.OnGrid s g ∧ s < g ∧ bound < g

section
variable {c : Cadence} {l : DayLine} {time : TimeOfDay} {n : Nat} (hc : c.Follows l time n)
  (hn : 1 ≤ n)
include hc hn

theorem Cadence.Follows.exists_nextAfter_utc {i : Int} {s : Moment}
    (hs : l.slot (.fixed 0) time i = .ok s) (started now : Moment) :
    ∃ q, c.nextAfter (.fixed 0) ⟨s, started, .scheduled⟩ now = .ok q ∧
      (IsLeast {g | c.GridAfter s (min started now) g} q ∨
        (∀ g, ¬c.GridAfter s (min started now) g) ∧ q = Moment.last) := by
  obtain ⟨k, hk, e⟩ := hc.following_eq_slot hn (fun _ _ hp => hc.step_utc hp) hs started now
  have hnext : c.nextAfter (.fixed 0) ⟨s, started, .scheduled⟩ now
      = orNever (l.slot (.fixed 0) time (i + n + k * n)) := congrArg orNever e
  have hi : i < i + n + k * n := by
    rw [← Int.natCast_mul]
    omega
  have hfirst : firstDay ≤ l.day (i + n + k * n) :=
    le_trans (DayLine.mem_of_slot hs).1 (l.day_le_iff.2 (le_of_lt hi))
  rw [hnext]
  rcases ZoneClock.utc_slot_or time hfirst with ⟨q, hq⟩ | hout
  · refine ⟨q, by rw [hq]; rfl, .inl ⟨⟨?_, ?_, hk.after q hq⟩, ?_⟩⟩
    · exact (hc.onGrid_iff hs).2 ⟨k, hq⟩
    · exact ZoneClock.utc_slot_lt hs hq hi
    · rintro g ⟨hgrid, -, hlt⟩
      obtain ⟨m, hm⟩ := (hc.onGrid_iff hs).1 hgrid
      obtain hle | heq := lt_or_eq_of_le (hk.le hm hlt)
      · exact le_of_lt (ZoneClock.utc_slot_lt hq hm hle)
      · rw [← heq, hq, Except.ok.injEq] at hm
        exact le_of_eq hm
  · rw [DayLine.slot_of_lt hout]
    refine ⟨Moment.last, rfl, .inr ⟨?_, rfl⟩⟩
    rintro g ⟨hgrid, -, hlt⟩
    obtain ⟨m, hm⟩ := (hc.onGrid_iff hs).1 hgrid
    have hday := l.day_le_iff.2 (hk.le hm hlt)
    have hmem := DayLine.mem_of_slot hm
    omega

theorem Cadence.Follows.nextAfter_last_utc (started now : Moment) :
    c.nextAfter (.fixed 0) ⟨Moment.last, started, .scheduled⟩ now = .ok Moment.last := by
  have hday : Moment.last.day = lastDay := by decide
  have hd := ZoneClock.utc_localDay Moment.last
  rw [hday] at hd
  -- the place of the last day is within a month of it
  have hplace := l.lt_day_succ lastDay
  have hmonth := l.succ_le (l.place lastDay)
  have hspan : firstDay + 31 ≤ lastDay := by decide
  have hstep := l.day_le_iff.2 (show l.place lastDay + 1 ≤ l.place lastDay + n by omega)
  show orNever (c.following _ _ _) = _
  rw [hc.following_eq, Cadence.step_eq_slot hc hd (by omega), DayLine.slot_of_lt (by omega)]
  rfl

theorem Cadence.Follows.exists_slot_of_nextAfter {i : Int} {p q : Moment}
    (hp : l.slot (.fixed 0) time i = .ok p) {started now : Moment}
    (h : c.nextAfter (.fixed 0) ⟨p, started, .scheduled⟩ now = .ok q) :
    q = Moment.last ∨ ∃ k : Nat, l.slot (.fixed 0) time (i + n + k * n) = .ok q := by
  obtain ⟨k, -, e⟩ := hc.following_eq_slot hn (fun _ _ hp => hc.step_utc hp) hp started now
  have h' : orNever (l.slot (.fixed 0) time (i + n + k * n)) = .ok q := by
    rw [← e]
    exact h
  rcases orNever_eq_ok h' with hq | ⟨-, hlast⟩
  · exact .inr ⟨k, hq⟩
  · exact .inl hlast

end

section
variable [ZoneDatabase]

/-- a run at `p`, whenever it starts and ends, can be followed by one at `q` -/
def Schedule.Leads (s : Schedule) (p q : Moment) : Prop :=
  ∃ started now, s.nextAfter ⟨p, started, .scheduled⟩ now = .ok q

/-- runs that follow each other stay on the grid of the first one -/
theorem Schedule.onGrid_of_leads {s : Schedule} (hzone : s.zone.clock = .fixed 0) {l : DayLine}
    {time : TimeOfDay} {n : Nat} (hc : s.cadence.Follows l time n) (hn : 1 ≤ n) {i : Int}
    {p q : Moment} (hp : l.slot (.fixed 0) time i = .ok p) (h : Relation.TransGen s.Leads p q) :
    q = Moment.last ∨ ∃ k : Nat, l.slot (.fixed 0) time (i + n + k * n) = .ok q := by
  have hstep {p q : Moment} (h : s.Leads p q) : ∃ started now,
      s.cadence.nextAfter (.fixed 0) ⟨p, started, .scheduled⟩ now = .ok q := by
    rw [← hzone]
    exact h
  induction h with
  | single h =>
    obtain ⟨started, now, h⟩ := hstep h
    exact hc.exists_slot_of_nextAfter hn hp h
  | tail _ h ih =>
    obtain ⟨started, now, h⟩ := hstep h
    rcases ih with rfl | ⟨k, hk⟩
    · rw [hc.nextAfter_last_utc hn, Except.ok.injEq] at h
      exact .inl h.symm
    · refine (hc.exists_slot_of_nextAfter hn hk h).imp_right ?_
      rintro ⟨m, hm⟩
      have e : i + n + ((k + 1 + m : Nat) : Int) * n = i + n + k * n + n + m * n := by
        rw [Int.natCast_add, Int.natCast_add_one, Int.add_mul, Int.add_mul, Int.one_mul]
        omega
      exact ⟨k + 1 + m, by rwa [e]⟩

/-! ## the law -/

/-- The run after a firing of an accepted schedule in UTC, at whatever moments the firing started and
ended, is the least moment on the grid of its slot that comes after the slot and was not due when it
started or when it ended; it is never if the calendar holds none.  All runs that follow a slot, one
after the other, lie on its grid. -/
theorem nextAfter_isLeast_grid {config : ScheduleConfig} {defaults : ScheduleDefaults}
    {s : Normalized} (h : config.normalize defaults = .ok s)
    (hzone : s.schedule.zone.clock = .fixed 0) {slot : Moment}
    (hslot : s.schedule.cadence.DueAt slot) :
    (∀ started now, ∃ q, s.schedule.nextAfter ⟨slot, started, .scheduled⟩ now = .ok q ∧
      (IsLeast {g | s.schedule.cadence.GridAfter slot (min started now) g} q ∨
        (∀ g, ¬s.schedule.cadence.GridAfter slot (min started now) g) ∧ q = Moment.last)) ∧
    ∀ q, Relation.TransGen s.schedule.Leads slot q →
      q = Moment.last ∨ s.schedule.cadence.OnGrid slot q := by
  obtain ⟨time, htime, -⟩ := hslot.2
  obtain ⟨l, n, hc, hn⟩ := (ScheduleConfig.accepted_of_normalize h).exists_follows htime
  obtain ⟨i, hi⟩ := hc.dueAt_iff.1 hslot
  constructor
  · intro started now
    unfold Schedule.nextAfter
    rw [hzone]
    exact hc.exists_nextAfter_utc hn hi started now
  · intro q hq
    rw [hc.onGrid_iff hi]
    exact Schedule.onGrid_of_leads hzone hc hn hi hq

end

open ZoneTable

/-- A run of a schedule for the 31st that was due on 2024-01-31 started on 2024-03-05 and took ten
minutes.  The run of February was due then, and the one on 2024-03-31 is next. -/
theorem nextAfter_isLeast_grid_march :
    ∃ config defaults s, ScheduleConfig.normalize config defaults = .ok s ∧
      s.schedule.zone = .host ∧ s.schedule.cadence = .monthly 31 ⟨3, 30⟩ 1 ∧
      s.schedule.cadence.DueAt ⟨1706671800000000000, by decide, by decide⟩ ∧
      s.schedule.nextAfter ⟨⟨1706671800000000000, by decide, by decide⟩,
          ⟨1709596800000000000, by decide, by decide⟩, .scheduled⟩
          ⟨1709597400000000000, by decide, by decide⟩
        = .ok ⟨1711855800000000000, by decide, by decide⟩ ∧
      IsLeast {g | s.schedule.cadence.GridAfter ⟨1706671800000000000, by decide, by decide⟩
          (min ⟨1709596800000000000, by decide, by decide⟩
            ⟨1709597400000000000, by decide, by decide⟩) g}
        ⟨1711855800000000000, by decide, by decide⟩ := by
  have h : ScheduleConfig.normalize { day := some 31, time := some "03:30" } ⟨86400, .host⟩
      = .ok ⟨⟨.monthly 31 ⟨3, 30⟩ 1, false, .host⟩, [⟨none, .months 1⟩]⟩ := by decide +kernel
  have hslot : (Cadence.monthly 31 ⟨3, 30⟩ 1).DueAt ⟨1706671800000000000, by decide, by decide⟩ :=
    ⟨by decide +kernel, ⟨3, 30⟩, rfl, by decide⟩
  obtain ⟨q, hq, hleast⟩ := (nextAfter_isLeast_grid h rfl hslot).1
    ⟨1709596800000000000, by decide, by decide⟩ ⟨1709597400000000000, by decide, by decide⟩
  have hnext : (⟨.monthly 31 ⟨3, 30⟩ 1, false, .host⟩ : Schedule).nextAfter
      ⟨⟨1706671800000000000, by decide, by decide⟩, ⟨1709596800000000000, by decide, by decide⟩,
        .scheduled⟩ ⟨1709597400000000000, by decide, by decide⟩
      = .ok ⟨1711855800000000000, by decide, by decide⟩ := by decide +kernel
  rw [hnext, Except.ok.injEq] at hq
  rw [← hq] at hleast
  refine ⟨_, _, _, h, rfl, rfl, hslot, hnext, hleast.resolve_right fun hnone => ?_⟩
  exact absurd hnone.2 (by decide)

end Rota
