import Mathlib.Order.Bounds.Basic
import Rota.Proofs.Schedule.Acceptance
import Rota.Zone.Table

/-!
# The interval in effect

Which interval a schedule goes by, told from the one that was configured, and when a replacement is
announced.  A weekly schedule takes the least number of weeks that is long enough, a monthly one the
configured months, the others the seconds they are given; a missing interval, or one of no seconds, is
the default.

* `Asks`, `AsksMonths`         what a configured interval asks for;
* `Cadence.Counts`             the counts of a cadence are the ones that were asked for;
* `Normalized.Announces`       a replacement is announced once, and nothing else is;
* `weeksOfWord`                the weeks as a machine word holds them;
* `effective_interval`         all of it, for every accepted configuration.
-/

namespace Rota

/-! ## what is asked for -/

inductive Asks (default : Nat) : Option Interval → Nat → Prop
  | own {n : Nat} (h : 0 < n) : Asks default (some (.seconds n)) n
  | zero : Asks default (some (.seconds 0)) default
  | absent : Asks default none default

/-- a configured interval asks for so many months: its own, or one when there are none -/
inductive AsksMonths : Option Interval → Nat → Prop
  | own {n : Nat} (h : 1 ≤ n) : AsksMonths (some (.months n)) n
  | other {configured : Option Interval} (h : ∀ n, 1 ≤ n → configured ≠ some (.months n)) :
    AsksMonths configured 1

theorem Asks.eq {default a b : Nat} {configured : Option Interval} (h : Asks default configured a)
    (h' : Asks default configured b) : a = b := by
  cases h with
  | own h =>
    cases h' with
    | own => rfl
    | zero => exact absurd h (by decide)
  | zero =>
    cases h' with
    | own h => exact absurd h (by decide)
    | zero => rfl
  | absent =>
    cases h' with
    | absent => rfl

theorem Asks.le {default seconds bound : Nat} {configured : Option Interval}
    (h : Asks default configured seconds) (hdefault : default ≤ bound)
    (hown : ∀ n, configured = some (.seconds n) → n ≤ bound) : seconds ≤ bound := by
  cases h with
  | own => exact hown seconds rfl
  | zero => exact hdefault
  | absent => exact hdefault

/-- the counts of a cadence are the ones that were asked for, whole weeks being the least that are long
enough -/
def Cadence.Counts (configured : Option Interval) (default : Nat) : Cadence → Prop
  | .weekly _ _ weeks =>
    ∃ seconds, Asks default configured seconds ∧ IsLeast {w | 1 ≤ w ∧ seconds ≤ 604800 * w} weeks
  | .monthly _ _ months => AsksMonths configured months
  | .dailyTime _ seconds => Asks default configured seconds
  | .plainInterval seconds => Asks default configured seconds

/-- a weekly or monthly schedule whose interval is not the configured one comes with one adjustment,
which tells both; no other schedule comes with any -/
def Normalized.Announces [ZoneDatabase] (n : Normalized) (configured : Option Interval) : Prop :=
  match n.schedule.policy with
  | .weekly | .monthly =>
    (n.adjustments = [] ↔ configured = some n.schedule.interval) ∧
      (configured ≠ some n.schedule.interval →
        n.adjustments = [⟨configured, n.schedule.interval⟩])
  | .dailyTime | .plainInterval => n.adjustments = []

namespace ScheduleConfig

section
variable {configured : Option Interval} {default seconds : Nat}

theorem asks_of_requestedSeconds (h : requestedSeconds configured default = .ok seconds) :
    Asks default configured seconds := by
  match configured with
  | none =>
    rw [← Except.ok.inj h]
    exact .absent
  | some (.months _) => exact nomatch h
  | some (.seconds n) =>
    have e : (if 0 < n then n else default) = seconds := Except.ok.inj h
    rw [← e]
    by_cases hn : 0 < n
    · rw [if_pos hn]
      exact .own hn
    · rw [if_neg hn, Nat.eq_zero_of_not_pos hn]
      exact .zero

theorem asksMonths_requestedMonths (configured : Option Interval) :
    AsksMonths configured (requestedMonths configured) := by
  match configured with
  | none => exact .other nofun
  | some (.seconds _) => exact .other nofun
  | some (.months n) =>
    show AsksMonths (some (.months n)) (if 0 < n then n else 1)
    by_cases hn : 0 < n
    · rw [if_pos hn]
      exact .own hn
    · rw [if_neg hn]
      refine .other fun m hm e => ?_
      rw [Option.some.injEq, Interval.months.injEq] at e
      omega

theorem isLeast_weeksFor (seconds : Nat) :
    IsLeast {w | 1 ≤ w ∧ seconds ≤ 604800 * w} (weeksFor seconds) := by
  unfold weeksFor Interval.week
  constructor
  · constructor <;> omega
  · rintro w ⟨h0, h1⟩
    omega

theorem adjustmentsTo_cases (configured : Option Interval) (adjusted : Interval) :
    (adjustmentsTo configured adjusted = [] ↔ configured = some adjusted) ∧
      (configured ≠ some adjusted →
        adjustmentsTo configured adjusted = [⟨configured, adjusted⟩]) := by
  unfold adjustmentsTo
  by_cases h : configured = some adjusted
  · rw [if_pos h]
    exact ⟨iff_of_true rfl h, fun hne => absurd h hne⟩
  · rw [if_neg h]
    exact ⟨iff_of_false (List.cons_ne_nil _ _) h, fun _ => rfl⟩

theorem counts_of_cadence [ZoneDatabase] {weekday : Option Weekday} {day : Option Nat}
    {time : Option TimeOfDay} {n : Normalized}
    (h : cadence configured default weekday day time
      = .ok (n.schedule.cadence, n.adjustments)) :
    n.schedule.cadence.Counts configured default ∧ n.Announces configured := by
  obtain ⟨⟨c, runOnStart, zone⟩, adjustments⟩ := n
  match weekday, day, time with
  | some w, d, none => exact nomatch h
  | some w, d, some t =>
    obtain ⟨seconds, hseconds, h⟩ := bind_eq_ok.1 h
    simp only at h
    split at h
    case isFalse => exact nomatch h
    case isTrue =>
      obtain ⟨rfl, rfl⟩ := Prod.mk.inj (Except.ok.inj h)
      exact ⟨⟨seconds, asks_of_requestedSeconds hseconds, isLeast_weeksFor seconds⟩,
        adjustmentsTo_cases configured _⟩
  | none, some d, none => exact nomatch h
  | none, some d, some t =>
    obtain ⟨rfl, rfl⟩ := Prod.mk.inj (Except.ok.inj h)
    exact ⟨asksMonths_requestedMonths configured, adjustmentsTo_cases configured _⟩
  | none, none, some t =>
    obtain ⟨seconds, hseconds, h⟩ := bind_eq_ok.1 h
    obtain ⟨rfl, rfl⟩ := Prod.mk.inj (Except.ok.inj h)
    exact ⟨asks_of_requestedSeconds hseconds, rfl⟩
  | none, none, none =>
    obtain ⟨seconds, hseconds, h⟩ := bind_eq_ok.1 h
    obtain ⟨rfl, rfl⟩ := Prod.mk.inj (Except.ok.inj h)
    exact ⟨asks_of_requestedSeconds hseconds, rfl⟩

end

/-! ## machine words -/

/-- the weeks of so many seconds as 64 bits hold them, where a result that does not fit would wrap -/
def weeksOfWord (seconds : UInt64) : UInt64 :=
  max (seconds / 604800 + if seconds % 604800 = 0 then 0 else 1) 1

def secondsOfWeeks (weeks : UInt32) : UInt64 := weeks.toUInt64 * 604800

theorem toNat_max (a b : UInt64) : (max a b).toNat = max a.toNat b.toNat := by
  rw [show max a b = if a ≤ b then b else a from rfl]
  by_cases h : a ≤ b
  · rw [if_pos h, max_eq_right (UInt64.le_iff_toNat_le.1 h)]
  · rw [if_neg h, max_eq_left (le_of_not_ge fun hle => h (UInt64.le_iff_toNat_le.2 hle))]

theorem toNat_weeksOfWord {seconds : Nat} (h : seconds ≤ Interval.longest) :
    (weeksOfWord (.ofNat seconds)).toNat = weeksFor seconds := by
  unfold Interval.longest at h
  have hword : (UInt64.ofNat seconds).toNat = seconds :=
    UInt64.toNat_ofNat_of_lt' (by simp only [UInt64.size]; omega)
  have hzero : UInt64.ofNat seconds % 604800 = 0 ↔ seconds % 604800 = 0 := by
    rw [← UInt64.toNat_inj, UInt64.toNat_mod, hword]
    rfl
  have hweek : (604800 : UInt64).toNat = 604800 := rfl
  rw [weeksOfWord, toNat_max, UInt64.toNat_add, UInt64.toNat_div, hword, hweek]
  simp only [hzero]
  unfold weeksFor Interval.week
  by_cases hrest : seconds % 604800 = 0
  · rw [if_pos hrest, show (0 : UInt64).toNat = 0 from rfl, show (1 : UInt64).toNat = 1 from rfl]
    omega
  · rw [if_neg hrest, show (1 : UInt64).toNat = 1 from rfl]
    omega

theorem toNat_secondsOfWeeks {weeks : Nat} (h : weeks < UInt32.size) :
    (secondsOfWeeks (.ofNat weeks)).toNat = weeks * Interval.week := by
  have hweek : (604800 : UInt64).toNat = 604800 := rfl
  rw [secondsOfWeeks, UInt64.toNat_mul, UInt32.toNat_toUInt64, UInt32.toNat_ofNat_of_lt' h, hweek]
  unfold Interval.week
  simp only [UInt32.size] at h
  omega

/-! ## weeks are never too many -/

theorem normalize_ne_tooManyWeeks [ZoneDatabase] (config : ScheduleConfig)
    (defaults : ScheduleDefaults) :
    config.normalize defaults ≠ .error (.invalidValue .tooManyWeeks) := by
  intro h
  have hnames : (ScheduleError.invalidValue .tooManyWeeks).Names "interval" := rfl
  unfold normalize at h
  simp only at h
  split at h
  case isTrue => exact nomatch h
  case isFalse hdefault =>
    rcases bind_eq_error.1 h with h | ⟨weekday, -, h⟩
    · obtain ⟨w, -, h⟩ := check_eq_error h
      exact absurd (hnames.eq (resolve_eq_error h)) (by decide)
    rcases bind_eq_error.1 h with h | ⟨day, -, h⟩
    · obtain ⟨d, -, h⟩ := check_eq_error h
      exact absurd (hnames.eq (checkDay_eq_error h)) (by decide)
    split at h
    · exact nomatch h
    rcases bind_eq_error.1 h with h | ⟨time, -, h⟩
    · obtain ⟨t, -, h⟩ := check_eq_error h
      exact absurd (hnames.eq (parseTime_eq_error h)) (by decide)
    rcases bind_eq_error.1 h with h | ⟨zone, -, h⟩
    · obtain ⟨z, -, h⟩ := check_eq_error h
      exact absurd (hnames.eq (parseZone_eq_error h)) (by decide)
    rcases bind_eq_error.1 h with h | ⟨⟨⟩, hlength, h⟩
    · unfold checkLength at h
      split at h
      · split at h
        · exact nomatch h
        · exact nomatch h
      · exact nomatch h
    rcases bind_eq_error.1 h with h | ⟨_, -, h⟩
    · rcases (cadence_eq_error_iff (by omega) (by omega) hlength).1 h with
        ⟨-, -, e⟩ | ⟨-, -, -, e⟩ | ⟨-, -, e⟩ <;> exact nomatch e
    · exact nomatch h

end ScheduleConfig

/-! ## the interval in effect -/

/-- The weeks of a weekly schedule are the least number, one at least, of as many seconds as were asked
for; the months of a monthly one are the configured ones, or one; the seconds of the others are the
configured ones, or the default.  A schedule of weeks or months comes with one adjustment if its interval
is not the configured one, which tells both, and with none if it is; the others never come with any.
Machine words hold every number on the way, and no interval is refused for too many weeks. -/
theorem effective_interval [ZoneDatabase] (config : ScheduleConfig) (defaults : ScheduleDefaults) :
    (∀ n, config.normalize defaults = .ok n →
      n.schedule.cadence.Counts config.interval defaults.interval ∧ n.Announces config.interval ∧
      ∀ weekday time weeks, n.schedule.cadence = .weekly weekday time weeks →
        weeks < UInt32.size ∧
        (ScheduleConfig.secondsOfWeeks (.ofNat weeks)).toNat = weeks * Interval.week ∧
        ∀ seconds, Asks defaults.interval config.interval seconds →
          seconds < UInt64.size ∧ (ScheduleConfig.weeksOfWord (.ofNat seconds)).toNat = weeks) ∧
    config.normalize defaults ≠ .error (.invalidValue .tooManyWeeks) := by
  refine ⟨fun n h => ?_, ScheduleConfig.normalize_ne_tooManyWeeks config defaults⟩
  obtain ⟨⟨-, hlongest⟩, weekday, day, time, zone, c, -, -, -, -, -, hlength, hcadence, hn⟩ :=
    ScheduleConfig.normalize_eq_ok_iff.1 h
  have hc : n.schedule.cadence = c := by rw [hn]
  rw [← hc] at hcadence
  obtain ⟨hcounts, hannounces⟩ := ScheduleConfig.counts_of_cadence hcadence
  refine ⟨hcounts, hannounces, fun weekday time weeks hweekly => ?_⟩
  rw [hweekly] at hcounts
  obtain ⟨seconds, hasks, hleast⟩ := hcounts
  have hweeks : weeks = ScheduleConfig.weeksFor seconds :=
    hleast.unique (ScheduleConfig.isLeast_weeksFor seconds)
  have hlong := hasks.le hlongest (ScheduleConfig.checkLength_eq_ok_iff.1 hlength)
  have hlt := ScheduleConfig.weeksFor_lt hlong
  rw [← hweeks] at hlt
  refine ⟨hlt, ScheduleConfig.toNat_secondsOfWeeks hlt, fun s hs => ?_⟩
  rw [hs.eq hasks, hweeks, ScheduleConfig.toNat_weeksOfWord hlong]
  refine ⟨?_, rfl⟩
  unfold Interval.longest at hlong
  simp only [UInt64.size]
  omega

open ZoneTable

/-- ten days are asked for every Monday: the schedule goes by two weeks, and says so -/
theorem effective_interval_monday :
    ∃ config defaults n, ScheduleConfig.normalize config defaults = .ok n ∧
      config.interval = some (.seconds 864000) ∧
      n.schedule.cadence = .weekly .monday ⟨4, 30⟩ 2 ∧
      IsLeast {w | 1 ≤ w ∧ 864000 ≤ 604800 * w} 2 ∧
      n.adjustments = [⟨some (.seconds 864000), .seconds 1209600⟩] ∧
      (ScheduleConfig.weeksOfWord (.ofNat 864000)).toNat = 2 := by
  let config : ScheduleConfig :=
    { interval := some (.seconds 864000), wday := some (.number 1), time := some "04:30" }
  have h : config.normalize ⟨86400, .host⟩
      = .ok ⟨⟨.weekly .monday ⟨4, 30⟩ 2, false, .host⟩,
          [⟨some (.seconds 864000), .seconds 1209600⟩]⟩ := by decide +kernel
  obtain ⟨⟨seconds, hasks, hleast⟩, hannounces, hwords⟩ :=
    (effective_interval config ⟨86400, .host⟩).1 _ h
  have hown : Asks 86400 (some (.seconds 864000)) 864000 := .own (by decide)
  rw [hasks.eq hown] at hleast
  exact ⟨config, ⟨86400, .host⟩, _, h, rfl, rfl, hleast, hannounces.2 (by decide),
    ((hwords _ _ _ rfl).2.2 864000 hown).2⟩

end Rota
