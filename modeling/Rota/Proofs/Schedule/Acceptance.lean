import Rota.Proofs.Schedule.Normalize
import Rota.Zone.Table

/-!
# Which configurations are accepted

A configuration is accepted when each of its fields can be used, and the fields fit together.

* `ScheduleConfig.WellFormed`      what the fields have to meet;
* `ScheduleConfig.policy`          the policy of a configuration, read off the fields that are set;
* `normalize_eq_ok_iff`            all checks at once, and the schedule that they lead to;
* `cadence_isOk_iff`               when checked fields have a cadence;
* `normalize_eq_error`             what a refusal tells: the field that was checked;
* `normalize_error_congr`          which valid default stands in for the interval does not matter for
                                   a refusal;
* `normalize_accepts_iff`          **exactly the well-formed configurations are accepted**, with the
                                   policy that the fields tell, and two days are refused as such.
-/

namespace Rota

/-- the error is about the value of this field -/
def ScheduleError.Names (e : ScheduleError) (field : String) : Prop :=
  match e with
  | .invalidValue fault => fault.field = field
  | _ => False

theorem ScheduleError.Names.eq {e : ScheduleError} {field other : String} (h : e.Names field)
    (h' : e.Names other) : other = field := by
  cases e with
  | invalidValue fault => exact Eq.trans (Eq.symm h') h
  | conflictingDays => exact h.elim
  | missingTime => exact h.elim

/-! ## the policy of a cadence -/

theorem Cadence.policy_eq (c : Cadence) :
    c.policy =
      if c.weekday?.isSome then .weekly
      else if c.day?.isSome then .monthly
      else if c.time?.isSome then .dailyTime
      else .plainInterval := by
  cases c <;> rfl

namespace ScheduleConfig

/-- the defaults can stand in for an interval: one second at least, and not above the longest -/
def ValidDefault [ZoneDatabase] (defaults : ScheduleDefaults) : Prop :=
  1 ≤ defaults.interval ∧ defaults.interval ≤ Interval.longest

/-- what the fields of a configuration have to meet, each by itself and together -/
structure WellFormed [ZoneDatabase] (config : ScheduleConfig) (defaults : ScheduleDefaults) :
    Prop where
  default : ValidDefault defaults
  weekday : ∀ w, config.wday = some w → ∃ d, w.resolve = .ok d
  day : ∀ d, config.day = some d → 1 ≤ d ∧ d ≤ 31
  single : config.wday = none ∨ config.day = none
  time : ∀ text, config.time = some text → ∃ t, TimeOfDay.parse text = .ok t
  zone : ∀ text, config.timezone = some text → ∃ z, Zone.parse text = .ok z
  length : ∀ n, config.interval = some (.seconds n) → n ≤ Interval.longest
  months : ∀ n, config.interval = some (.months n) → config.day ≠ none
  timed : config.wday ≠ none ∨ config.day ≠ none → config.time ≠ none

/-- the policy of a configuration: a weekday goes before a day, a day before a time -/
def policy (config : ScheduleConfig) : Policy :=
  if config.wday.isSome then .weekly
  else if config.day.isSome then .monthly
  else if config.time.isSome then .dailyTime
  else .plainInterval

/-! ## the checks of the fields -/

section
variable {α β : Type} {f : α → Except ScheduleError β} {x : Option α}

theorem check_eq_ok_iff {y : Option β} :
    check f x = .ok y ↔
      (x = none ∧ y = none) ∨ ∃ a b, x = some a ∧ f a = .ok b ∧ y = some b := by
  constructor
  · intro h
    cases x with
    | none => exact .inl ⟨rfl, (Except.ok.inj h).symm⟩
    | some a =>
      right
      rw [check] at h
      cases hf : f a with
      | error e =>
        rw [hf] at h
        cases h
      | ok b =>
        rw [hf] at h
        exact ⟨a, b, rfl, hf, (Except.ok.inj h).symm⟩
  · rintro (⟨rfl, rfl⟩ | ⟨a, b, rfl, hf, rfl⟩)
    · rfl
    · rw [check, hf]
      rfl

theorem check_isOk_iff : (∃ y, check f x = .ok y) ↔ ∀ a, x = some a → ∃ b, f a = .ok b := by
  constructor
  · rintro ⟨y, h⟩ a rfl
    rcases check_eq_ok_iff.1 h with ⟨h, -⟩ | ⟨a', b, ha, hb, -⟩
    · exact nomatch h
    · exact ⟨b, Option.some.inj ha ▸ hb⟩
  · intro h
    cases hx : x with
    | none => exact ⟨none, rfl⟩
    | some a =>
      obtain ⟨b, hb⟩ := h a hx
      exact ⟨some b, check_eq_ok_iff.2 (.inr ⟨a, b, rfl, hb, rfl⟩)⟩

theorem isSome_of_check {y : Option β} (h : check f x = .ok y) : y.isSome = x.isSome := by
  rcases check_eq_ok_iff.1 h with ⟨rfl, rfl⟩ | ⟨a, b, rfl, -, rfl⟩ <;> rfl

theorem eq_none_iff_of_check {y : Option β} (h : check f x = .ok y) : y = none ↔ x = none := by
  rw [← Option.not_isSome_iff_eq_none, ← Option.not_isSome_iff_eq_none, isSome_of_check h]

theorem check_eq_error {e : ScheduleError} (h : check f x = .error e) :
    ∃ a, x = some a ∧ f a = .error e := by
  cases x with
  | none => cases h
  | some a =>
    refine ⟨a, rfl, ?_⟩
    rw [check] at h
    cases hf : f a with
    | error e' =>
      rw [hf] at h
      exact congrArg _ (Except.error.inj h)
    | ok b =>
      rw [hf] at h
      cases h

end

theorem checkDay_eq_ok_iff {day d : Nat} :
    checkDay day = .ok d ↔ (1 ≤ day ∧ day ≤ 31) ∧ d = day := by
  unfold checkDay
  split
  case isTrue hd => exact ⟨fun h => ⟨hd, (Except.ok.inj h).symm⟩, fun h => by rw [h.2]⟩
  case isFalse hd => exact ⟨nofun, fun h => absurd h.1 hd⟩

theorem eq_of_check_day {day d : Option Nat} (h : check checkDay day = .ok d) : d = day := by
  rcases check_eq_ok_iff.1 h with ⟨rfl, rfl⟩ | ⟨a, b, rfl, hb, rfl⟩
  · rfl
  · rw [(checkDay_eq_ok_iff.1 hb).2]

theorem checkLength_eq_ok_iff {configured : Option Interval} :
    checkLength configured = .ok () ↔
      ∀ n, configured = some (.seconds n) → n ≤ Interval.longest := by
  constructor
  · rintro h n rfl
    exact le_of_checkLength h
  · intro h
    match configured with
    | none => rfl
    | some (.months _) => rfl
    | some (.seconds n) =>
      have := h n rfl
      rw [checkLength, if_neg (by omega)]

/-! ## the cadence of checked fields -/

section
variable {configured : Option Interval} {default : Nat} {weekday : Option Weekday}
  {day : Option Nat} {time : Option TimeOfDay}

theorem requestedSeconds_isOk_iff :
    (∃ seconds, requestedSeconds configured default = .ok seconds) ↔
      ∀ n, configured ≠ some (.months n) := by
  match configured with
  | none => exact ⟨fun _ => nofun, fun _ => ⟨default, rfl⟩⟩
  | some (.seconds n) => exact ⟨fun _ => nofun, fun _ => ⟨_, rfl⟩⟩
  | some (.months n) => exact ⟨fun ⟨_, h⟩ => (nomatch h), fun h => absurd rfl (h n)⟩

theorem weeksFor_lt {seconds : Nat} (h : seconds ≤ Interval.longest) :
    weeksFor seconds < UInt32.size := by
  unfold weeksFor Interval.week
  unfold Interval.longest at h
  simp only [UInt32.size]
  omega

theorem cadence_eq_bind (weekday : Option Weekday) (day : Option Nat) (time : Option TimeOfDay)
    (h0 : 1 ≤ default) (h1 : default ≤ Interval.longest) (hl : checkLength configured = .ok ())
    (hfit : weekday ≠ none ∧ time ≠ none ∨ weekday = none ∧ day = none) :
    ∃ f, cadence configured default weekday day time = requestedSeconds configured default >>= f ∧
      ∀ seconds, requestedSeconds configured default = .ok seconds → ∃ r, f seconds = .ok r := by
  rcases hfit with ⟨hw, ht⟩ | ⟨rfl, rfl⟩
  · obtain ⟨w, rfl⟩ := Option.ne_none_iff_exists'.1 hw
    obtain ⟨t, rfl⟩ := Option.ne_none_iff_exists'.1 ht
    refine ⟨_, rfl, fun seconds hs => ⟨(.weekly w t (weeksFor seconds),
      adjustmentsTo configured (.seconds (weeksFor seconds * Interval.week))), ?_⟩⟩
    exact if_pos (weeksFor_lt (requestedSeconds_bounds h0 h1 hl hs).2)
  · refine ⟨_, rfl, fun seconds _ => ?_⟩
    cases time with
    | none => exact ⟨(.plainInterval seconds, []), rfl⟩
    | some t => exact ⟨(.dailyTime t seconds, []), rfl⟩

theorem cadence_isOk_iff (h0 : 1 ≤ default) (h1 : default ≤ Interval.longest)
    (hl : checkLength configured = .ok ()) :
    (∃ r, cadence configured default weekday day time = .ok r) ↔
      (weekday ≠ none ∨ day ≠ none → time ≠ none) ∧
        ∀ n, configured = some (.months n) → weekday = none ∧ day ≠ none := by
  match weekday, day, time with
  | some w, d, none =>
    refine ⟨fun ⟨_, h⟩ => (nomatch h), fun h => absurd rfl (h.1 (.inl (Option.some_ne_none w)))⟩
  | some w, d, some t =>
    obtain ⟨f, heq, hf⟩ := cadence_eq_bind (some w) d (some t) h0 h1 hl
      (.inl ⟨Option.some_ne_none w, Option.some_ne_none t⟩)
    rw [heq, bind_isOk_iff hf, requestedSeconds_isOk_iff]
    refine ⟨fun h => ⟨fun _ => Option.some_ne_none t, fun n hn => absurd hn (h n)⟩, fun h n hn => ?_⟩
    exact absurd (h.2 n hn).1 (Option.some_ne_none w)
  | none, some d, none =>
    refine ⟨fun ⟨_, h⟩ => (nomatch h), fun h => absurd rfl (h.1 (.inr (Option.some_ne_none d)))⟩
  | none, some d, some t =>
    exact ⟨fun _ => ⟨fun _ => Option.some_ne_none t, fun _ _ => ⟨rfl, Option.some_ne_none d⟩⟩,
      fun _ => ⟨_, rfl⟩⟩
  | none, none, t =>
    obtain ⟨f, heq, hf⟩ := cadence_eq_bind none none t h0 h1 hl (.inr ⟨rfl, rfl⟩)
    rw [heq, bind_isOk_iff hf, requestedSeconds_isOk_iff]
    refine ⟨fun h => ⟨fun hn => ?_, fun n hn => absurd hn (h n)⟩, fun h n hn => ?_⟩
    · rcases hn with hn | hn <;> exact absurd rfl hn
    · exact absurd rfl (h.2 n hn).2

theorem fields_of_cadence {c : Cadence} {adjustments : List Adjustment}
    (h : cadence configured default weekday day time = .ok (c, adjustments)) :
    c.weekday? = weekday ∧ (weekday = none → c.day? = day) ∧ c.time? = time := by
  match weekday, day, time with
  | some w, d, none => exact nomatch h
  | some w, d, some t =>
    obtain ⟨seconds, -, h⟩ := bind_eq_ok.1 h
    simp only at h
    split at h
    case isTrue =>
      rw [← (Prod.mk.inj (Except.ok.inj h)).1]
      exact ⟨rfl, nofun, rfl⟩
    case isFalse => exact nomatch h
  | none, some d, none => exact nomatch h
  | none, some d, some t =>
    rw [← (Prod.mk.inj (Except.ok.inj h)).1]
    exact ⟨rfl, fun _ => rfl, rfl⟩
  | none, none, some t =>
    obtain ⟨seconds, -, h⟩ := bind_eq_ok.1 h
    rw [← (Prod.mk.inj (Except.ok.inj h)).1]
    exact ⟨rfl, fun _ => rfl, rfl⟩
  | none, none, none =>
    obtain ⟨seconds, -, h⟩ := bind_eq_ok.1 h
    rw [← (Prod.mk.inj (Except.ok.inj h)).1]
    exact ⟨rfl, fun _ => rfl, rfl⟩

/-- the refusal of checked fields: a time is missing, or months came without a day -/
theorem cadence_eq_error_iff (h0 : 1 ≤ default) (h1 : default ≤ Interval.longest)
    (hl : checkLength configured = .ok ()) {e : ScheduleError} :
    cadence configured default weekday day time = .error e ↔
      (weekday ≠ none ∧ time = none ∧ e = .missingTime .weekly) ∨
      (weekday = none ∧ day ≠ none ∧ time = none ∧ e = .missingTime .monthly) ∨
      ((∃ n, configured = some (.months n)) ∧ (weekday ≠ none ∧ time ≠ none ∨
        weekday = none ∧ day = none) ∧ e = .invalidValue .monthsWithoutDay) := by
  have hseconds : requestedSeconds configured default = .error e ↔
      (∃ n, configured = some (.months n)) ∧ e = .invalidValue .monthsWithoutDay := by
    match configured with
    | none => exact ⟨nofun, fun ⟨⟨_, h⟩, _⟩ => (nomatch h)⟩
    | some (.seconds n) => exact ⟨nofun, fun ⟨⟨_, h⟩, _⟩ => (nomatch h)⟩
    | some (.months n) => exact ⟨fun h => ⟨⟨n, rfl⟩, (Except.error.inj h).symm⟩, fun h => by
        rw [h.2]
        rfl⟩
  match weekday, day, time with
  | some w, d, none => simp [cadence, eq_comm]
  | some w, d, some t =>
    obtain ⟨f, heq, hf⟩ := cadence_eq_bind (some w) d (some t) h0 h1 hl
      (.inl ⟨Option.some_ne_none w, Option.some_ne_none t⟩)
    rw [heq, bind_eq_error_of_isOk hf, hseconds]
    simp
  | none, some d, none => simp [cadence, eq_comm]
  | none, some d, some t => simp [cadence]
  | none, none, t =>
    obtain ⟨f, heq, hf⟩ := cadence_eq_bind none none t h0 h1 hl (.inr ⟨rfl, rfl⟩)
    rw [heq, bind_eq_error_of_isOk hf, hseconds]
    simp

end

/-! ## all checks at once -/

section
variable [ZoneDatabase] {config : ScheduleConfig} {defaults : ScheduleDefaults}

theorem normalize_eq_ok_iff {n : Normalized} :
    config.normalize defaults = .ok n ↔
      ValidDefault defaults ∧ ∃ weekday day time zone c,
        check WeekdaySpec.resolve config.wday = .ok weekday ∧
        check checkDay config.day = .ok day ∧
        (weekday = none ∨ day = none) ∧
        check TimeOfDay.parse config.time = .ok time ∧
        check Zone.parse config.timezone = .ok zone ∧
        checkLength config.interval = .ok () ∧
        cadence config.interval defaults.interval weekday day time = .ok (c, n.adjustments) ∧
        n.schedule = ⟨c, config.runOnStart, zone.getD defaults.zone⟩ := by
  unfold normalize
  simp only
  split
  case isTrue hbad =>
    refine ⟨nofun, fun h => ?_⟩
    obtain ⟨h0, h1⟩ := h.1
    omega
  case isFalse hgood =>
    constructor
    · intro h
      obtain ⟨weekday, hweekday, h⟩ := bind_eq_ok.1 h
      obtain ⟨day, hday, h⟩ := bind_eq_ok.1 h
      split at h
      case h_1 => exact nomatch h
      case h_2 hboth =>
        obtain ⟨time, htime, h⟩ := bind_eq_ok.1 h
        obtain ⟨zone, hzone, h⟩ := bind_eq_ok.1 h
        obtain ⟨⟨⟩, hlength, h⟩ := bind_eq_ok.1 h
        obtain ⟨⟨c, adjustments⟩, hcadence, h⟩ := bind_eq_ok.1 h
        have hn := Except.ok.inj h
        refine ⟨⟨by omega, by omega⟩, weekday, day, time, zone, c, hweekday, hday, ?_, htime, hzone,
          hlength, by rw [← hn]; exact hcadence, by rw [← hn]⟩
        cases weekday with
        | none => exact .inl rfl
        | some w =>
          cases day with
          | none => exact .inr rfl
          | some d => exact (hboth w d rfl rfl).elim
    · rintro ⟨-, weekday, day, time, zone, c, hweekday, hday, hboth, htime, hzone, hlength, hcadence,
        hn⟩
      refine bind_eq_ok.2 ⟨weekday, hweekday, bind_eq_ok.2 ⟨day, hday, ?_⟩⟩
      split
      case h_1 w d => rcases hboth with h | h <;> exact nomatch h
      case h_2 =>
        refine bind_eq_ok.2 ⟨time, htime, bind_eq_ok.2 ⟨zone, hzone, bind_eq_ok.2
          ⟨(), hlength, bind_eq_ok.2 ⟨(c, n.adjustments), hcadence, ?_⟩⟩⟩⟩
        rw [← hn]
        rfl

theorem normalize_isOk_iff :
    (∃ n, config.normalize defaults = .ok n) ↔ config.WellFormed defaults := by
  constructor
  · rintro ⟨n, h⟩
    obtain ⟨hdefault, weekday, day, time, zone, c, hweekday, hday, hboth, htime, hzone, hlength,
      hcadence, -⟩ := normalize_eq_ok_iff.1 h
    have hfits := (cadence_isOk_iff hdefault.1 hdefault.2 hlength).1 ⟨_, hcadence⟩
    rw [ne_eq, ne_eq, ne_eq, eq_none_iff_of_check hweekday, eq_none_iff_of_check hday,
      eq_none_iff_of_check htime] at hfits
    refine ⟨hdefault, check_isOk_iff.1 ⟨_, hweekday⟩, fun d hd => ?_, ?_,
      check_isOk_iff.1 ⟨_, htime⟩, check_isOk_iff.1 ⟨_, hzone⟩, checkLength_eq_ok_iff.1 hlength,
      fun n hn => (hfits.2 n hn).2, hfits.1⟩
    · obtain ⟨b, hb⟩ := check_isOk_iff.1 ⟨_, hday⟩ d hd
      exact (checkDay_eq_ok_iff.1 hb).1
    · exact hboth.imp (eq_none_iff_of_check hweekday).1 (eq_none_iff_of_check hday).1
  · intro h
    obtain ⟨weekday, hweekday⟩ := check_isOk_iff.2 h.weekday
    obtain ⟨day, hday⟩ := check_isOk_iff.2 fun d hd =>
      ⟨d, checkDay_eq_ok_iff.2 ⟨h.day d hd, rfl⟩⟩
    obtain ⟨time, htime⟩ := check_isOk_iff.2 h.time
    obtain ⟨zone, hzone⟩ := check_isOk_iff.2 h.zone
    have hlength := checkLength_eq_ok_iff.2 h.length
    have hboth : weekday = none ∨ day = none :=
      h.single.imp (eq_none_iff_of_check hweekday).2 (eq_none_iff_of_check hday).2
    have hfits : (weekday ≠ none ∨ day ≠ none → time ≠ none) ∧
        ∀ n, config.interval = some (.months n) → weekday = none ∧ day ≠ none := by
      rw [ne_eq, ne_eq, ne_eq, eq_none_iff_of_check hweekday, eq_none_iff_of_check hday,
        eq_none_iff_of_check htime]
      exact ⟨h.timed, fun n hn => ⟨h.single.resolve_right (h.months n hn), h.months n hn⟩⟩
    obtain ⟨⟨c, adjustments⟩, hcadence⟩ :=
      (cadence_isOk_iff h.default.1 h.default.2 hlength).2 hfits
    exact ⟨⟨⟨c, config.runOnStart, zone.getD defaults.zone⟩, adjustments⟩,
      normalize_eq_ok_iff.2 ⟨h.default, weekday, day, time, zone, c, hweekday, hday, hboth, htime,
        hzone, hlength, hcadence, rfl⟩⟩

theorem fields_of_normalize {n : Normalized} (h : config.normalize defaults = .ok n) :
    check WeekdaySpec.resolve config.wday = .ok n.schedule.cadence.weekday? ∧
      n.schedule.cadence.day? = config.day ∧
      check TimeOfDay.parse config.time = .ok n.schedule.cadence.time? ∧
      (∃ zone, check Zone.parse config.timezone = .ok zone ∧
        n.schedule.zone = zone.getD defaults.zone) ∧
      n.schedule.runOnStart = config.runOnStart := by
  obtain ⟨-, weekday, day, time, zone, c, hweekday, hday, hboth, htime, hzone, -, hcadence, hn⟩ :=
    normalize_eq_ok_iff.1 h
  obtain ⟨hw, hd, ht⟩ := fields_of_cadence hcadence
  rw [hn]
  refine ⟨hw ▸ hweekday, ?_, ht ▸ htime, ⟨zone, hzone, rfl⟩, rfl⟩
  rw [← eq_of_check_day hday]
  rcases hboth with hnone | hnone
  · exact hd hnone
  · -- a weekly cadence has no day of the month
    cases hc : weekday with
    | none => exact hd hc
    | some w =>
      rw [hc] at hw
      rw [hnone]
      cases c with
      | weekly => rfl
      | monthly => exact nomatch hw
      | dailyTime => exact nomatch hw
      | plainInterval => exact nomatch hw

theorem policy_of_normalize {n : Normalized} (h : config.normalize defaults = .ok n) :
    n.schedule.policy = config.policy := by
  obtain ⟨hw, hd, ht, -⟩ := fields_of_normalize h
  rw [Schedule.policy, Cadence.policy_eq, policy, isSome_of_check hw, hd, isSome_of_check ht]

/-- two days are refused as such, whatever else is wrong -/
theorem normalize_conflict (hdefault : ValidDefault defaults) {w : WeekdaySpec} {weekday : Weekday}
    {day : Nat} (hw : config.wday = some w) (hweekday : w.resolve = .ok weekday)
    (hd : config.day = some day) (hday : 1 ≤ day ∧ day ≤ 31) :
    config.normalize defaults = .error (.conflictingDays weekday day) := by
  obtain ⟨h0, h1⟩ := hdefault
  unfold normalize
  simp only
  rw [if_neg (by omega), hw, hd]
  refine bind_eq_error.2 (.inr ⟨some weekday, check_eq_ok_iff.2 (.inr ⟨w, weekday, rfl, hweekday,
    rfl⟩), bind_eq_error.2 (.inr ⟨some day, check_eq_ok_iff.2 (.inr ⟨day, day, rfl,
    checkDay_eq_ok_iff.2 ⟨hday, rfl⟩, rfl⟩), rfl⟩)⟩)

end

/-! ## what a refusal tells -/

theorem resolve_eq_error {w : WeekdaySpec} {e : ScheduleError} (h : w.resolve = .error e) :
    e.Names "wday" := by
  have hnumber {n : Nat} (h : Weekday.ofNumber n = .error e) : e.Names "wday" := by
    unfold Weekday.ofNumber at h
    split at h
    · exact nomatch h
    · exact Except.error.inj h ▸ rfl
  cases w with
  | number n => exact hnumber h
  | name text =>
    rw [WeekdaySpec.resolve, Weekday.parse] at h
    split at h
    · exact hnumber h
    · split at h
      · exact nomatch h
      · exact Except.error.inj h ▸ rfl

theorem checkDay_eq_error {day : Nat} {e : ScheduleError} (h : checkDay day = .error e) :
    e.Names "day" := by
  unfold checkDay at h
  split at h
  · exact nomatch h
  · exact Except.error.inj h ▸ rfl

theorem parseTime_eq_error {text : String} {e : ScheduleError}
    (h : TimeOfDay.parse text = .error e) : e.Names "time" := by
  unfold TimeOfDay.parse at h
  split at h
  · exact nomatch h
  · exact Except.error.inj h ▸ rfl

theorem parseZone_eq_error [ZoneDatabase] {text : String} {e : ScheduleError} (h : Zone.parse text = .error e) :
    e.Names "timezone" := by
  unfold Zone.parse at h
  simp only at h
  split at h
  · exact nomatch h
  · split at h
    · exact nomatch h
    · exact Except.error.inj h ▸ rfl

theorem checkLength_eq_error {configured : Option Interval} {e : ScheduleError}
    (h : checkLength configured = .error e) : e.Names "interval" := by
  unfold checkLength at h
  split at h
  · split at h
    · exact Except.error.inj h ▸ rfl
    · exact nomatch h
  · exact nomatch h

section
variable [ZoneDatabase] {config : ScheduleConfig} {defaults : ScheduleDefaults}

/-- with a valid default a refusal tells of a field of the schedule, or of a field that is missing
or set besides -/
theorem normalize_eq_error (hdefault : ValidDefault defaults) {e : ScheduleError}
    (h : config.normalize defaults = .error e) :
    (∃ field ∈ ["interval", "day", "wday", "time", "timezone"], e.Names field) ∨
      (∃ weekday day, e = .conflictingDays weekday day) ∨ ∃ policy, e = .missingTime policy := by
  obtain ⟨h0, h1⟩ := hdefault
  unfold normalize at h
  simp only at h
  rw [if_neg (by omega)] at h
  rcases bind_eq_error.1 h with h | ⟨weekday, -, h⟩
  · obtain ⟨w, -, h⟩ := check_eq_error h
    exact .inl ⟨"wday", by decide, resolve_eq_error h⟩
  rcases bind_eq_error.1 h with h | ⟨day, -, h⟩
  · obtain ⟨d, -, h⟩ := check_eq_error h
    exact .inl ⟨"day", by decide, checkDay_eq_error h⟩
  split at h
  · exact .inr (.inl ⟨_, _, (Except.error.inj h).symm⟩)
  rcases bind_eq_error.1 h with h | ⟨time, -, h⟩
  · obtain ⟨t, -, h⟩ := check_eq_error h
    exact .inl ⟨"time", by decide, parseTime_eq_error h⟩
  rcases bind_eq_error.1 h with h | ⟨zone, -, h⟩
  · obtain ⟨z, -, h⟩ := check_eq_error h
    exact .inl ⟨"timezone", by decide, parseZone_eq_error h⟩
  rcases bind_eq_error.1 h with h | ⟨⟨⟩, hlength, h⟩
  · exact .inl ⟨"interval", by decide, checkLength_eq_error h⟩
  rcases bind_eq_error.1 h with h | ⟨_, -, h⟩
  · rcases (cadence_eq_error_iff h0 h1 hlength).1 h with ⟨-, -, rfl⟩ | ⟨-, -, -, rfl⟩ | ⟨-, -, rfl⟩
    · exact .inr (.inr ⟨_, rfl⟩)
    · exact .inr (.inr ⟨_, rfl⟩)
    · exact .inl ⟨"interval", by decide, rfl⟩
  · exact nomatch h

/-- what is refused with one valid default is refused in the same words with every other -/
theorem normalize_error_congr {other : ScheduleDefaults} (hdefault : ValidDefault defaults)
    (hother : ValidDefault other) {e : ScheduleError} (h : config.normalize defaults = .error e) :
    config.normalize other = .error e := by
  obtain ⟨h0, h1⟩ := hdefault
  obtain ⟨h2, h3⟩ := hother
  unfold normalize at h ⊢
  simp only at h ⊢
  rw [if_neg (by omega)] at h ⊢
  rcases bind_eq_error.1 h with h | ⟨weekday, hweekday, h⟩
  · exact bind_eq_error.2 (.inl h)
  refine bind_eq_error.2 (.inr ⟨weekday, hweekday, ?_⟩)
  rcases bind_eq_error.1 h with h | ⟨day, hday, h⟩
  · exact bind_eq_error.2 (.inl h)
  refine bind_eq_error.2 (.inr ⟨day, hday, ?_⟩)
  split at h
  · exact h
  rcases bind_eq_error.1 h with h | ⟨time, htime, h⟩
  · exact bind_eq_error.2 (.inl h)
  refine bind_eq_error.2 (.inr ⟨time, htime, ?_⟩)
  rcases bind_eq_error.1 h with h | ⟨zone, hzone, h⟩
  · exact bind_eq_error.2 (.inl h)
  refine bind_eq_error.2 (.inr ⟨zone, hzone, ?_⟩)
  rcases bind_eq_error.1 h with h | ⟨⟨⟩, hlength, h⟩
  · exact bind_eq_error.2 (.inl h)
  refine bind_eq_error.2 (.inr ⟨(), hlength, ?_⟩)
  rcases bind_eq_error.1 h with h | ⟨_, -, h⟩
  · rw [cadence_eq_error_iff h0 h1 hlength] at h
    exact bind_eq_error.2 (.inl ((cadence_eq_error_iff h2 h3 hlength).2 h))
  · exact nomatch h

end

end ScheduleConfig

/-! ## acceptance -/

/-- Exactly the well-formed configurations are accepted.  The policy of an accepted one is told by its
fields, its cadence has these fields, and its counts are within their bounds.  Two usable days are
refused as such, whatever else is wrong. -/
theorem normalize_accepts_iff [ZoneDatabase] (config : ScheduleConfig)
    (defaults : ScheduleDefaults) :
    ((∃ n, config.normalize defaults = .ok n) ↔ config.WellFormed defaults) ∧
      (∀ n, config.normalize defaults = .ok n →
        n.schedule.policy = config.policy ∧ n.schedule.cadence.Accepted ∧
          ScheduleConfig.check WeekdaySpec.resolve config.wday
            = .ok n.schedule.cadence.weekday? ∧
          n.schedule.cadence.day? = config.day ∧
          ScheduleConfig.check TimeOfDay.parse config.time = .ok n.schedule.cadence.time?) ∧
      ∀ w weekday day, ScheduleConfig.ValidDefault defaults → config.wday = some w →
        w.resolve = .ok weekday → config.day = some day → 1 ≤ day ∧ day ≤ 31 →
        config.normalize defaults = .error (.conflictingDays weekday day) := by
  refine ⟨ScheduleConfig.normalize_isOk_iff, fun n h => ?_, fun w weekday day hdefault hw hweekday
    hd hday => ScheduleConfig.normalize_conflict hdefault hw hweekday hd hday⟩
  obtain ⟨hw, hd, ht, -⟩ := ScheduleConfig.fields_of_normalize h
  exact ⟨ScheduleConfig.policy_of_normalize h, ScheduleConfig.accepted_of_normalize h, hw, hd, ht⟩

open ZoneTable

/-- months without a day of the month are refused, and be they none -/
example : ({ interval := some (.months 0), time := some "04:30" } : ScheduleConfig).normalize
    ⟨86400, .host⟩ = .error (.invalidValue .monthsWithoutDay) := by decide +kernel

example : ({ day := some 7, wday := some (.number 1), time := some "noon" } : ScheduleConfig).normalize
    ⟨86400, .host⟩ = .error (.conflictingDays .monday 7) := by decide +kernel

end Rota
