import Rota.Proofs.Schedule.Normalize
import Rota.Proofs.Text.Numeral
import Rota.Zone.Table

/-!
# Normalizing again

A schedule that came out of a configuration can be written as a configuration, and that is normalized
to the same schedule.  Only weekly schedules of more than a hundred years are lost: their interval is
rounded up to whole weeks after it was compared with the longest one.

* `TimeOfDay.parse_text`, `Weekday.parse_name`, `Zone.parse_text`   the texts of the fields are read
  back;
* `Schedule.normalize_toConfig`   the configuration of a schedule is normalized to it;
* `normalize_toConfig_iff`        exactly when no weeks are lost.
-/

namespace Rota

open Text

/-! ## texts that are read back -/

theorem TimeOfDay.parse_text (t : TimeOfDay) : TimeOfDay.parse t.text = .ok t := by
  have hlen : (Numeral.padded 2 t.hour).length = 2 := Numeral.length_padded (by decide) (by omega)
  have mlen : (Numeral.padded 2 t.minute).length = 2 := Numeral.length_padded (by decide) (by omega)
  have hdigit : ∀ c ∈ Numeral.padded 2 t.hour, c.isDigit = true :=
    fun _ => Numeral.isDigit_of_mem_padded
  have mdigit : ∀ c ∈ Numeral.padded 2 t.minute, c.isDigit = true :=
    fun _ => Numeral.isDigit_of_mem_padded
  have hdig := List.all_eq_true.2 hdigit
  have mdig := List.all_eq_true.2 mdigit
  have hcolon : ∀ c ∈ Numeral.padded 2 t.hour, decide (c ≠ ':') = true := by
    intro c hc
    have h := hdigit c hc
    rw [decide_eq_true_eq]
    rintro rfl
    exact absurd h (by decide)
  have htrim : trim t.chars = t.chars := by
    refine trim_eq_self fun c hc => ?_
    rcases List.mem_append.1 hc with hc | hc
    · exact isBlank_of_isDigit (hdigit c hc)
    · rcases List.mem_cons.1 hc with rfl | hc
      · decide
      · exact isBlank_of_isDigit (mdigit c hc)
  have hof : ofChars? t.chars = some t := by
    unfold ofChars? chars
    rw [List.takeWhile_append_of_pos hcolon, List.dropWhile_append_of_pos hcolon]
    simp [hlen, hdig, mlen, mdig, Numeral.value_padded, ofNumbers?]
  unfold TimeOfDay.parse TimeOfDay.text
  rw [String.toList_ofList, htrim, hof]

theorem Weekday.parse_name (d : Weekday) : Weekday.parse d.name = .ok d := by
  cases d <;> rfl

theorem Zone.parse_text [ZoneDatabase] (z : Zone) : Zone.parse z.text = .ok z := by
  cases z with
  | host =>
    have htrim : trim "local".toList = ['l', 'o', 'c', 'a', 'l'] := by decide
    unfold Zone.parse Zone.text
    rw [htrim, if_pos (.inr (by decide))]
  | named z =>
    have hname := ZoneDatabase.isZoneName z
    have htrim : trim (ZoneDatabase.name z).toList = (ZoneDatabase.name z).toList :=
      trim_eq_self hname.not_blank
    unfold Zone.parse Zone.text
    rw [htrim, if_neg (not_or.2 ⟨hname.ne_empty, hname.ne_local⟩), String.ofList_toList,
      ZoneDatabase.ofName?_name]

/-! ## the configuration of a schedule -/

theorem ScheduleConfig.weeksFor_mul (weeks : Nat) (h : 1 ≤ weeks) :
    ScheduleConfig.weeksFor (weeks * Interval.week) = weeks := by
  unfold ScheduleConfig.weeksFor Interval.week
  omega

theorem ScheduleConfig.requestedSeconds_pos {n default : Nat} (h : 1 ≤ n) :
    ScheduleConfig.requestedSeconds (some (.seconds n)) default = .ok n := by
  show Except.ok (if 0 < n then n else default) = Except.ok n
  rw [if_pos (by omega)]

theorem ScheduleConfig.adjustmentsTo_self (i : Interval) :
    ScheduleConfig.adjustmentsTo (some i) i = [] := if_pos rfl

theorem Cadence.Accepted.cadence_eq {c : Cadence} (hc : c.Accepted) (default : Nat) :
    ScheduleConfig.cadence (some c.interval) default c.weekday? c.day? c.time? = .ok (c, []) := by
  cases hc with
  | @weekly weekday time weeks h0 h1 =>
    have hpos : 1 ≤ weeks * Interval.week := by
      unfold Interval.week
      omega
    show (ScheduleConfig.requestedSeconds _ default >>= _) = _
    rw [Cadence.interval, ScheduleConfig.requestedSeconds_pos hpos, bind, Monad.toBind]
    simp only [Except.instMonad, Except.bind, ScheduleConfig.weeksFor_mul weeks h0, if_pos h1,
      ScheduleConfig.adjustmentsTo_self]
  | @monthly day time months h0 h1 h2 =>
    have hm : ScheduleConfig.requestedMonths (some (.months months)) = months := if_pos (by omega)
    show Except.ok (Cadence.monthly day time (ScheduleConfig.requestedMonths (some (.months months))),
      ScheduleConfig.adjustmentsTo (some (.months months))
        (.months (ScheduleConfig.requestedMonths (some (.months months))))) = _
    rw [hm, ScheduleConfig.adjustmentsTo_self]
  | dailyTime time h0 h1 =>
    show (ScheduleConfig.requestedSeconds _ default >>= _) = _
    rw [Cadence.interval, ScheduleConfig.requestedSeconds_pos h0]
    rfl
  | plainInterval h0 h1 =>
    show (ScheduleConfig.requestedSeconds _ default >>= _) = _
    rw [Cadence.interval, ScheduleConfig.requestedSeconds_pos h0]
    rfl

theorem ScheduleConfig.check_map {α β : Type} {f : β → Except ScheduleError α} {g : α → β}
    (h : ∀ a, f (g a) = .ok a) (x : Option α) :
    ScheduleConfig.check f (x.map g) = .ok x := by
  cases x with
  | none => rfl
  | some a =>
    show (f (g a)).map some = _
    rw [h]
    rfl

theorem Cadence.Accepted.check_day {c : Cadence} (hc : c.Accepted) :
    ScheduleConfig.check ScheduleConfig.checkDay c.day? = .ok c.day? := by
  cases hc with
  | @monthly day _ _ h0 h1 _ =>
    show (ScheduleConfig.checkDay day).map some = _
    rw [ScheduleConfig.checkDay, if_pos ⟨h0, h1⟩]
    rfl
  | weekly => rfl
  | dailyTime => rfl
  | plainInterval => rfl

section
variable [ZoneDatabase] {s : Schedule} {e : ScheduleDefaults}

/-- the configuration of a schedule passes all checks but perhaps the one of its length, and it is
normalized to the schedule -/
theorem Schedule.normalize_toConfig (hs : s.cadence.Accepted) (h0 : 1 ≤ e.interval)
    (h1 : e.interval ≤ Interval.longest) :
    s.toConfig.normalize e =
      (ScheduleConfig.checkLength (some s.interval)).map fun _ => ⟨s, []⟩ := by
  have hdef : ¬(e.interval = 0 ∨ Interval.longest < e.interval) := by omega
  have hweekday : ScheduleConfig.check WeekdaySpec.resolve s.toConfig.wday
      = .ok s.cadence.weekday? :=
    ScheduleConfig.check_map (g := WeekdaySpec.ofWeekday) Weekday.parse_name _
  have hday : ScheduleConfig.check ScheduleConfig.checkDay s.toConfig.day = .ok s.cadence.day? :=
    hs.check_day
  have htime : ScheduleConfig.check TimeOfDay.parse s.toConfig.time = .ok s.cadence.time? :=
    ScheduleConfig.check_map TimeOfDay.parse_text _
  have hzone : ScheduleConfig.check Zone.parse s.toConfig.timezone = .ok (some s.zone) :=
    ScheduleConfig.check_map Zone.parse_text (some s.zone)
  have hcadence := hs.cadence_eq e.interval
  unfold ScheduleConfig.normalize
  simp only [if_neg hdef, hweekday, hday, htime, hzone, bind, Except.bind]
  rw [show s.toConfig.interval = some s.cadence.interval from rfl, hcadence]
  split
  case h_1 weekday day hw hd =>
    -- no cadence has a weekday and a day of the month
    cases hc : s.cadence with
    | weekly => simp [hc, Cadence.day?] at hd
    | monthly => simp [hc, Cadence.weekday?] at hw
    | dailyTime => simp [hc, Cadence.weekday?] at hw
    | plainInterval => simp [hc, Cadence.weekday?] at hw
  case h_2 =>
    rw [show s.interval = s.cadence.interval from rfl]
    cases ScheduleConfig.checkLength (some s.cadence.interval) <;> rfl

theorem Schedule.checkLength_iff (hs : s.cadence.Accepted) :
    ScheduleConfig.checkLength (some s.interval) = .ok () ↔
      ∀ weekday time weeks, s.cadence = .weekly weekday time weeks →
        weeks * Interval.week ≤ Interval.longest := by
  have hseconds (n : Nat) : ScheduleConfig.checkLength (some (.seconds n)) = .ok () ↔
      n ≤ Interval.longest := by
    refine ⟨ScheduleConfig.le_of_checkLength, fun h => ?_⟩
    rw [ScheduleConfig.checkLength, if_neg (by omega)]
  obtain ⟨c, start, zone⟩ := s
  cases hs with
  | @weekly weekday time weeks =>
    refine (hseconds (weeks * Interval.week)).trans ⟨fun h _ _ _ hc => ?_, fun h => h _ _ _ rfl⟩
    rw [Cadence.weekly.injEq] at hc
    rwa [← hc.2.2]
  | monthly =>
    refine ⟨fun _ _ _ _ hc => ?_, fun _ => rfl⟩
    cases hc
  | dailyTime _ _ h1 =>
    refine ⟨fun _ _ _ _ hc => ?_, fun _ => (hseconds _).2 h1⟩
    cases hc
  | plainInterval _ h1 =>
    refine ⟨fun _ _ _ _ hc => ?_, fun _ => (hseconds _).2 h1⟩
    cases hc

end

/-! ## the law and its exception -/

/-- The configuration of an accepted schedule is normalized to the same schedule, without adjustments
and whatever the defaults are, exactly when the schedule is not a weekly one with an interval above
the longest. -/
theorem normalize_toConfig_iff [ZoneDatabase] {config : ScheduleConfig} {defaults e : ScheduleDefaults}
    {n : Normalized} (h : config.normalize defaults = .ok n) (h0 : 1 ≤ e.interval)
    (h1 : e.interval ≤ Interval.longest) :
    n.schedule.toConfig.normalize e = .ok ⟨n.schedule, []⟩ ↔
      ∀ weekday time weeks, n.schedule.cadence = .weekly weekday time weeks →
        weeks * Interval.week ≤ Interval.longest := by
  have hs := ScheduleConfig.accepted_of_normalize h
  rw [← Schedule.checkLength_iff hs, Schedule.normalize_toConfig hs h0 h1]
  cases ScheduleConfig.checkLength (some n.schedule.interval) with
  | ok => exact ⟨fun _ => rfl, fun _ => rfl⟩
  | error => exact ⟨nofun, nofun⟩

open ZoneTable

/-- a schedule for Mondays whose missing interval was made a week comes back as it was -/
theorem normalize_toConfig_iff_monday :
    ∃ config defaults n, ScheduleConfig.normalize config defaults = .ok n ∧ n.adjustments ≠ [] ∧
      n.schedule.toConfig.normalize ⟨60, .host⟩ = .ok ⟨n.schedule, []⟩ := by
  have h : ScheduleConfig.normalize { wday := some (.name "monday"), time := some "04:30" }
      ⟨86400, .host⟩
      = .ok ⟨⟨.weekly .monday ⟨4, 30⟩ 1, false, .host⟩, [⟨none, .seconds 604800⟩]⟩ := by
    decide +kernel
  refine ⟨_, _, _, h, by simp, (normalize_toConfig_iff h (by decide) (by decide)).2 ?_⟩
  intro weekday time weeks hc
  rw [Cadence.weekly.injEq] at hc
  rw [← hc.2.2]
  decide

/-- a schedule for Mondays every hundred years of 365 days is refused when it comes back -/
theorem not_normalize_toConfig :
    ∃ config defaults n, ScheduleConfig.normalize config defaults = .ok n ∧
      n.schedule.toConfig.normalize defaults
        = .error (.invalidValue (.overLongest 3154032000)) := by
  have h : ScheduleConfig.normalize
      { interval := some (.seconds 3153600000), wday := some (.name "monday"),
        time := some "04:30" } ⟨86400, .host⟩
      = .ok ⟨⟨.weekly .monday ⟨4, 30⟩ 5215, false, .host⟩,
        [⟨some (.seconds 3153600000), .seconds 3154032000⟩]⟩ := by decide +kernel
  refine ⟨_, _, _, h, ?_⟩
  rw [Schedule.normalize_toConfig (ScheduleConfig.accepted_of_normalize h) (by decide) (by decide)]
  decide +kernel

end Rota
