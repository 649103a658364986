import Rota.Proofs.Calendar.Month
import Rota.Proofs.Schedule.Order

/-!
# Lines of days

A cadence that is due at a time of day is due on a line of days: all of them, one in seven, or one
in each month.  The days of a line are numbered.

* `DayLine`                  a line, with its laws;
* `DayLine.daily`, `DayLine.weekly`, `DayLine.monthly`   the three kinds of lines;
* `DayLine.slot`             the slot on a day of a line;
* `Cadence.Follows`          the line, the time and the stride of a cadence;
* `Cadence.first_eq_slot`    the first slot after a moment, on the line;
* `Cadence.step_eq_slot`     the slot one period after another, on the line.
-/

namespace Rota

open Calendar

/-- days with numbers -/
structure DayLine where
  day : Int → Int
  /-- the number of the day to which a date belongs: the last one that is not after it, or the one
  of its month -/
  place : Int → Int
  start : Int → Int
  gap : Int
  gap_pos : 1 ≤ gap
  add_gap_le : ∀ {i j}, i < j → day i + gap ≤ day j
  succ_le : ∀ i, day (i + 1) ≤ day i + 31
  place_day : ∀ i, place (day i) = i
  place_mono : ∀ {d e}, d ≤ e → place d ≤ place e
  lt_day_succ : ∀ d, d < day (place d + 1)
  start_day : ∀ i, start (day i) = i
  start_mono : ∀ {d e}, d ≤ e → start d ≤ start e
  day_lt : ∀ {i d}, i < start d → day i < d
  first_le : ∀ {d}, firstDay ≤ d → firstDay ≤ day (start d)

namespace DayLine

/-! ## the three lines -/

def daily : DayLine where
  day i := i
  place d := d
  start d := d
  gap := 1
  gap_pos := by decide
  add_gap_le h := by omega
  succ_le i := by omega
  place_day _ := rfl
  place_mono h := h
  lt_day_succ _ := by omega
  start_day _ := rfl
  start_mono h := h
  day_lt h := h
  first_le h := h

def weekly (weekday : Weekday) : DayLine where
  day i := 7 * i + weekday.number - 4
  place d := (d + 4 - weekday.number) / 7
  start d := (d + 10 - weekday.number) / 7
  gap := 7
  gap_pos := by decide
  add_gap_le h := by omega
  succ_le i := by omega
  place_day i := by omega
  place_mono h := by omega
  lt_day_succ d := by omega
  start_day i := by omega
  start_mono h := by omega
  day_lt h := by omega
  first_le h := by omega

def monthly (day : Nat) (h : 1 ≤ day) : DayLine where
  day i := clampedDay i day
  place := monthOfDay
  start := monthOfDay
  gap := 28
  gap_pos := by decide
  add_gap_le := clampedDay_add_le h
  succ_le := clampedDay_le_succ h
  place_day i := monthOfDay_clampedDay i h
  place_mono := monthOfDay_mono
  lt_day_succ d := by
    have h0 := (monthOfDay_spec d).2
    have h1 := (clampedDay_mem h (monthOfDay d + 1)).1
    omega
  start_day i := monthOfDay_clampedDay i h
  start_mono := monthOfDay_mono
  day_lt {i _} hlt := by
    have h1 := (clampedDay_mem h i).2
    have h2 := lt_monthOfDay hlt
    omega
  first_le {d} hd := by
    have h0 := monthOfDay_mono hd
    have h1 := monthStart_mono h0
    have h2 := (clampedDay_mem h (monthOfDay d)).1
    have h3 := (monthOfDay_spec firstDay).1
    rw [firstDay_eq_monthStart] at *
    have h4 : monthOfDay (monthStart firstMonth) = firstMonth :=
      monthOfDay_clampedDay firstMonth (Nat.le_refl 1)
    rw [h4] at h1
    omega

section
variable (l : DayLine)

theorem day_lt_iff {i j : Int} : l.day i < l.day j ↔ i < j := by
  have hg := l.gap_pos
  constructor
  · intro h
    by_contra hle
    obtain h' | rfl := (by omega : j < i ∨ i = j)
    · have := l.add_gap_le h'
      omega
    · omega
  · intro h
    have := l.add_gap_le h
    omega

theorem day_le_iff {i j : Int} : l.day i ≤ l.day j ↔ i ≤ j := by
  have h := l.day_lt_iff (i := j) (j := i)
  omega

theorem le_place {i d : Int} (h : l.day i ≤ d) : i ≤ l.place d := by
  have := l.place_mono h
  rwa [l.place_day] at this

theorem le_start {i d : Int} (h : l.day i ≤ d) : i ≤ l.start d := by
  have := l.start_mono h
  rwa [l.start_day] at this

end

/-! ## slots -/

def slot (l : DayLine) (z : ZoneClock) (time : TimeOfDay) (i : Int) : Except SlotFault Moment :=
  Cadence.onDay z time (l.day i)

def wall (l : DayLine) (time : TimeOfDay) (i : Int) : Int := l.day i * 86400 + time.seconds

/-- the search at `now` that begins with the day `i` ends with the day `k` -/
structure IsFirst (l : DayLine) (z : ZoneClock) (time : TimeOfDay) (now : Moment) (i k : Int) :
    Prop where
  le : i ≤ k
  before : ∀ j, i ≤ j → j < k → ∃ m, l.slot z time j = .ok m ∧ m ≤ now
  after : ∀ m, l.slot z time k = .ok m → now < m

section
variable {l : DayLine} {z : ZoneClock} {time : TimeOfDay} {i j k : Int} {p q : Moment}

theorem slot_of_mem (h0 : firstDay ≤ l.day i) (h1 : l.day i ≤ lastDay) :
    l.slot z time i = z.resolve (l.day i) time := if_pos ⟨h0, h1⟩

theorem slot_of_lt (h : lastDay < l.day i) : l.slot z time i = .error .beyondCalendar :=
  if_neg (by omega)

theorem mem_of_slot (h : l.slot z time i = .ok p) : firstDay ≤ l.day i ∧ l.day i ≤ lastDay := by
  by_contra hn
  rw [slot, Cadence.onDay, if_neg hn] at h
  exact nomatch h

theorem answer_of_slot (h : l.slot z time i = .ok p) :
    ∃ s, z.Answer (l.wall time i) s ∧ p.AtSecond s := by
  have hm := mem_of_slot h
  rw [slot_of_mem hm.1 hm.2] at h
  exact ZoneClock.answer_of_resolve hm.2 h

theorem slot_error {e : SlotFault} (h : l.slot z time i = .error e) :
    e = .wallClock ∨ e = .beyondCalendar ∧ ¬(firstDay ≤ l.day i ∧ l.day i ≤ lastDay) := by
  by_cases hm : firstDay ≤ l.day i ∧ l.day i ≤ lastDay
  · rw [slot_of_mem hm.1 hm.2] at h
    exact .inl (ZoneClock.resolve_error h)
  · rw [slot, Cadence.onDay, if_neg hm, Except.error.injEq] at h
    exact .inr ⟨h.symm, hm⟩

theorem slot_isOk (h0 : firstDay ≤ l.day i) (h1 : l.day i < lastDay) :
    ∃ p, l.slot z time i = .ok p := by
  rw [slot_of_mem h0 (by omega)]
  exact ZoneClock.resolve_isOk time h0 h1

theorem wall_bounds (l : DayLine) (time : TimeOfDay) (i : Int) :
    l.day i * 86400 ≤ l.wall time i ∧ l.wall time i < (l.day i + 1) * 86400 := by
  have ht := time.seconds_bounds
  unfold wall
  omega

theorem wall_mem (h : l.slot z time i = .ok p) :
    firstSecond ≤ l.wall time i ∧ l.wall time i ≤ lastSecond := by
  have hm := mem_of_slot h
  have hw := l.wall_bounds time i
  have hf := firstSecond_eq_firstDay
  have hl := lastSecond_eq_lastDay
  omega

end

/-! ## the order of slots -/

section
variable {l : DayLine} {z : ZoneClock} {time : TimeOfDay} {i j : Int} {p q : Moment}

/-- slots come in their order, unless the search for the earlier one gave up and the later one is
that of the next day -/
theorem slot_lt (hz : z.Orderly) (hp : l.slot z time i = .ok p) (hq : l.slot z time j = .ok q)
    (hij : i < j) (hgives : z.GivesUp (l.wall time i) → l.day i + 2 ≤ l.day j) : p < q := by
  obtain ⟨s, hs, hps⟩ := answer_of_slot hp
  obtain ⟨t, ht, hqt⟩ := answer_of_slot hq
  have hij' := l.day_lt_iff.2 hij
  have hlt : s < t := by
    unfold wall at *
    exact hs.lt hz ht (by omega) fun h => by
      have := hgives h
      omega
  rw [hqt.lt_iff, hps.seconds_eq]
  exact hlt

variable (hz : z.Regular)
include hz

theorem exists_localDay (hp : l.slot z time i = .ok p) :
    ∃ d, z.localDay p = .ok d ∧ l.day i ≤ d ∧ d ≤ l.day i + 2 := by
  obtain ⟨s, hs, hps⟩ := answer_of_slot hp
  exact hs.exists_localDay hz.faithful hps (mem_of_slot hp).1 (hs.reading_le hz (wall_mem hp).1)

/-- a slot comes before the slots of the days after the one that the wall clock shows at it -/
theorem slot_lt_of_localDay {d : Int} (hp : l.slot z time i = .ok p) (hd : z.localDay p = .ok d)
    (hq : l.slot z time j = .ok q) (hlt : d < l.day j) : p < q := by
  obtain ⟨s, hs, hps⟩ := answer_of_slot hp
  obtain ⟨t, ht, hqt⟩ := answer_of_slot hq
  obtain ⟨-, -, e⟩ := ZoneClock.localDay_eq_ok_iff.1 hd
  rw [hps.seconds_eq] at e
  have hb := hs.bounds hz.faithful
  have hwi := l.wall_bounds time i
  have hwj := l.wall_bounds time j
  have hij : l.day i < l.day j := by omega
  have hlt' : s < t := by
    refine hs.lt_of_reading_lt hz ht ?_ (by omega) (wall_mem hp).1
    unfold wall
    omega
  rw [hqt.lt_iff, hps.seconds_eq]
  exact hlt'

/-- when the wall clock shows an earlier day than before, the slots of the days before that one are
over -/
theorem slot_le_of_setBack {a b : Moment} {d e : Int} (hab : a ≤ b) (ha : z.localDay a = .ok d)
    (hb : z.localDay b = .ok e) (hback : e < d) (hp : l.slot z time i = .ok p)
    (hi : l.day i < d) : p ≤ b := by
  obtain ⟨s, hs, hps⟩ := answer_of_slot hp
  obtain ⟨-, -, ea⟩ := ZoneClock.localDay_eq_ok_iff.1 ha
  obtain ⟨-, -, eb⟩ := ZoneClock.localDay_eq_ok_iff.1 hb
  have hw := l.wall_bounds time i
  rw [hps.le_iff]
  exact hs.le_of_setBack hz (Moment.seconds_mono hab) b.seconds_mem.2 (by omega) (by omega)
    (wall_mem hp).1

end

end DayLine

/-! ## the line of a cadence -/

/-- a cadence is due on a line of days at a time, every so many days of it -/
inductive Cadence.Follows : Cadence → DayLine → TimeOfDay → Nat → Prop
  | daily (time : TimeOfDay) (seconds : Nat) : Follows (.dailyTime time seconds) .daily time 1
  | weekly (weekday : Weekday) (time : TimeOfDay) (weeks : Nat) :
      Follows (.weekly weekday time weeks) (.weekly weekday) time weeks
  | monthly {day : Nat} (h : 1 ≤ day) (time : TimeOfDay) (months : Nat) :
      Follows (.monthly day time months) (.monthly day h) time months

/-! ## searches along a line -/

section
variable {l : DayLine} {z : ZoneClock} {time : TimeOfDay} {now : Moment} {i k : Int}

namespace DayLine

theorem isFirst_self (h : ∀ m, l.slot z time i = .ok m → now < m) : l.IsFirst z time now i i :=
  ⟨Int.le_refl i, fun _ h0 h1 => absurd h1 (Int.not_lt.2 h0), h⟩

theorem isFirst_of_lt {p : Moment} (hp : l.slot z time i = .ok p) (h : now < p) :
    l.IsFirst z time now i i :=
  isFirst_self fun m hm => by rwa [Except.ok.inj (hm.symm.trans hp)]

theorem IsFirst.tail (h : l.IsFirst z time now i k) (hne : i < k) :
    l.IsFirst z time now (i + 1) k :=
  ⟨hne, fun j h0 h1 => h.before j (by omega) h1, h.after⟩

theorem exists_isFirst (l : DayLine) (z : ZoneClock) (time : TimeOfDay) (now : Moment) (i : Int) :
    ∃ k, l.IsFirst z time now i k := by
  by_cases hend : lastDay < l.day i
  · refine ⟨i, isFirst_self fun m hm => ?_⟩
    rw [slot_of_lt hend] at hm
    exact nomatch hm
  · cases hs : l.slot z time i with
    | error e => exact ⟨i, isFirst_self (by simp [hs])⟩
    | ok p =>
      by_cases hp : now < p
      · exact ⟨i, isFirst_of_lt hs hp⟩
      · have hgap := l.add_gap_le (i := i) (j := i + 1) (by omega)
        have hpos := l.gap_pos
        obtain ⟨k, hk⟩ := exists_isFirst l z time now (i + 1)
        refine ⟨k, by have := hk.le; omega, fun j h0 h1 => ?_, hk.after⟩
        obtain rfl | hlt := (by omega : j = i ∨ i + 1 ≤ j)
        · exact ⟨p, hs, not_lt.1 hp⟩
        · exact hk.before j hlt h1
termination_by (lastDay + 1 - l.day i).toNat

/-- a search that looks at one day of the line after the other ends with the first slot after
`now` -/
theorem IsFirst.eq_slot {f : Int → Except SlotFault Moment}
    (hf : ∀ i, firstDay ≤ l.day i → f i =
      match l.slot z time i with
      | .error e => .error e
      | .ok m => if now < m then .ok m else f (i + 1))
    (h : l.IsFirst z time now i k) (hfirst : firstDay ≤ l.day i) : f i = l.slot z time k := by
  obtain ⟨n, rfl⟩ : ∃ n : Nat, k = i + n := ⟨(k - i).toNat, by have := h.le; omega⟩
  induction n generalizing i with
  | zero =>
    rw [hf i hfirst, show i + ((0 : Nat) : Int) = i by omega]
    cases hs : l.slot z time i with
    | error e => rfl
    | ok m => exact if_pos (h.after m (by simpa using hs))
  | succ n ih =>
    obtain ⟨m, hm, hle⟩ := h.before i (Int.le_refl i) (by omega)
    have hgap := l.day_le_iff.2 (show i ≤ i + 1 by omega)
    have e : i + ((n + 1 : Nat) : Int) = i + 1 + n := by omega
    have htail := h.tail (by omega)
    rw [e] at htail
    rw [hf i hfirst, hm, e]
    simp only [if_neg (not_lt.2 hle)]
    exact ih (by omega) htail

theorem firstOnDays_eq {stride : Nat} (hstride : ∀ i, l.day (i + 1) = l.day i + stride)
    (hpos : 0 < stride) (i : Int) (hfirst : firstDay ≤ l.day i) :
    firstOnDays z time now stride (l.day i) =
      match l.slot z time i with
      | .error e => .error e
      | .ok m => if now < m then .ok m else firstOnDays z time now stride (l.day (i + 1)) := by
  rw [firstOnDays, hstride]
  by_cases hmem : l.day i ≤ lastDay
  · rw [slot_of_mem hfirst hmem]
    cases z.resolve (l.day i) time with
    | error e => exact dif_pos ⟨hmem, hpos⟩
    | ok m => exact dif_pos ⟨hmem, hpos⟩
  · rw [dif_neg (by omega), slot_of_lt (by omega)]

theorem monthly_mem_iff {day : Nat} (h : 1 ≤ day) :
    (firstDay ≤ clampedDay i day ∧ clampedDay i day ≤ lastDay) ↔
      firstMonth ≤ i ∧ i ≤ lastMonth := by
  constructor
  · intro hd
    have hm := monthOfDay_mem hd.1 hd.2
    rwa [monthOfDay_clampedDay i h] at hm
  · exact fun hi => clampedDay_mem_calendar h hi.1 hi.2

theorem monthly_slot {day : Nat} (h : 1 ≤ day) :
    (monthly day h).slot z time i =
      if firstMonth ≤ i ∧ i ≤ lastMonth then z.resolve (clampedDay i day) time
      else .error .beyondCalendar := by
  rw [slot, Cadence.onDay]
  exact if_congr (monthly_mem_iff h) rfl rfl

theorem firstInMonths_eq {day : Nat} (h : 1 ≤ day) (i : Int) :
    firstInMonths z time now day i =
      match (monthly day h).slot z time i with
      | .error e => .error e
      | .ok m => if now < m then .ok m else firstInMonths z time now day (i + 1) := by
  rw [firstInMonths, monthly_slot h]
  by_cases hmem : firstMonth ≤ i ∧ i ≤ lastMonth
  · rw [if_pos hmem]
    cases z.resolve (clampedDay i day) time with
    | error e => exact dif_pos hmem
    | ok m => exact dif_pos hmem
  · rw [dif_neg hmem, if_neg hmem]

end DayLine

theorem DayLine.IsFirst.day_le (hz : z.Faithful) {d : Int} (hd : z.localDay now = .ok d)
    (hk : l.IsFirst z time now (l.start d) k) : l.day k ≤ d + 33 := by
  have hstep := l.succ_le (k - 1)
  rw [show k - 1 + 1 = k by omega] at hstep
  by_cases hstart : l.start d < k
  · -- the slot before has passed, at most two days after the day that the wall clock shows
    obtain ⟨m, hm, hmr⟩ := hk.before (k - 1) (by omega) (by omega)
    obtain ⟨s, hs, hms⟩ := answer_of_slot hm
    have hb := hs.bounds hz
    have hw := l.wall_bounds time (k - 1)
    have ho := hz.offset_bounds now.seconds
    obtain ⟨-, -, e⟩ := ZoneClock.localDay_eq_ok_iff.1 hd
    unfold ZoneClock.reading at e
    rw [hms.le_iff] at hmr
    omega
  · have hle := hk.le
    have hlt := l.day_lt (i := k - 1) (d := d) (by omega)
    omega

/-! ## the searches of a cadence -/

theorem add_daysAhead (weekday : Weekday) (d : Int) :
    d + daysAhead weekday d = (DayLine.weekly weekday).day ((DayLine.weekly weekday).start d) := by
  have hw := weekday.number_lt
  show _ = 7 * ((d + 10 - (weekday.number : Int)) / 7) + weekday.number - 4
  unfold daysAhead weekdayNumber
  omega

theorem sub_daysBack (weekday : Weekday) (d : Int) :
    d - daysBack weekday d = (DayLine.weekly weekday).day ((DayLine.weekly weekday).place d) := by
  have hw := weekday.number_lt
  show _ = 7 * ((d + 4 - (weekday.number : Int)) / 7) + weekday.number - 4
  unfold daysBack weekdayNumber
  omega

theorem ZoneClock.firstDay_le_of_localDay {m : Moment} {d : Int} (h : z.localDay m = .ok d) :
    firstDay ≤ d ∧ d ≤ lastDay := by
  have hf := firstSecond_eq_firstDay
  have hl := lastSecond_eq_lastDay
  obtain ⟨h0, h1, e⟩ := ZoneClock.localDay_eq_ok_iff.1 h
  omega

theorem DayLine.IsFirst.firstDay_le {d : Int} (h : l.IsFirst z time now (l.start d) k)
    (hd : z.localDay now = .ok d) : firstDay ≤ l.day k :=
  Int.le_trans (l.first_le (ZoneClock.firstDay_le_of_localDay hd).1) (l.day_le_iff.2 h.le)

namespace Cadence

variable {c : Cadence} {n : Nat} {d : Int} {m : Moment}

/-- the first slot after a moment, on the line of the cadence -/
theorem first_eq_slot (hc : c.Follows l time n) (hd : z.localDay now = .ok d)
    (hk : l.IsFirst z time now (l.start d) k) : c.first z now = l.slot z time k := by
  have hmem := ZoneClock.firstDay_le_of_localDay hd
  unfold first
  rw [hd, bind, Monad.toBind, Except.instMonad]
  simp only [Except.bind]
  cases hc with
  | daily time seconds =>
    exact hk.eq_slot (DayLine.firstOnDays_eq (fun i => rfl) (by decide)) hmem.1
  | weekly weekday time weeks =>
    have e := add_daysAhead weekday d
    have hstride (i : Int) : (DayLine.weekly weekday).day (i + 1) =
        (DayLine.weekly weekday).day i + (7 : Nat) := by
      show 7 * (i + 1) + (weekday.number : Int) - 4 = 7 * i + weekday.number - 4 + 7
      omega
    show firstOnDays z time now 7 (d + daysAhead weekday d) = _
    rw [e]
    exact hk.eq_slot (f := fun i => firstOnDays z time now 7 ((DayLine.weekly weekday).day i))
      (DayLine.firstOnDays_eq hstride (by decide)) ((DayLine.weekly weekday).first_le hmem.1)
  | monthly h time months =>
    exact hk.eq_slot (fun i _ => DayLine.firstInMonths_eq h i)
      ((DayLine.monthly _ h).first_le hmem.1)

theorem step_eq_slot (hc : c.Follows l time n) (hd : z.localDay m = .ok d)
    (hfirst : firstDay ≤ l.day (l.place d)) :
    c.step z m = l.slot z time (l.place d + n) := by
  unfold step
  rw [hd, bind, Monad.toBind, Except.instMonad]
  simp only [Except.bind]
  cases hc with
  | daily time seconds => rfl
  | weekly weekday time weeks =>
    have e : (DayLine.weekly weekday).day ((DayLine.weekly weekday).place d + n) =
        (DayLine.weekly weekday).day ((DayLine.weekly weekday).place d) + 7 * n := by
      show 7 * (_ + (n : Int)) + (weekday.number : Int) - 4 = 7 * _ + _ - 4 + 7 * _
      omega
    show (if firstDay ≤ d - daysBack weekday d then _ else _) = _
    rw [sub_daysBack, if_pos hfirst, DayLine.slot, e]
  | monthly h time months => exact (DayLine.monthly_slot h).symm

end Cadence

end

end Rota
