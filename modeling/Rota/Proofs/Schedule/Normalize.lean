import Rota.Proofs.Except
import Rota.Proofs.Schedule.Line
import Rota.Schedule.Normalize

/-!
# Accepted schedules

* `Cadence.Accepted`                  the cadences that configurations can lead to;
* `ScheduleConfig.accepted_of_normalize`   no other cadence comes out of a configuration;
* `Cadence.Accepted.plain_or_follows`      an accepted cadence is a plain interval or follows a line.
-/

namespace Rota

/-- the cadences that configurations can lead to: every count is at least one, and seconds are
bounded by the longest interval -/
inductive Cadence.Accepted : Cadence → Prop
  | weekly (weekday : Weekday) (time : TimeOfDay) {weeks : Nat} (h0 : 1 ≤ weeks)
      (h1 : weeks < UInt32.size) : Accepted (.weekly weekday time weeks)
  | monthly {day : Nat} (time : TimeOfDay) {months : Nat} (h0 : 1 ≤ day) (h1 : day ≤ 31)
      (h2 : 1 ≤ months) : Accepted (.monthly day time months)
  | dailyTime (time : TimeOfDay) {seconds : Nat} (h0 : 1 ≤ seconds)
      (h1 : seconds ≤ Interval.longest) : Accepted (.dailyTime time seconds)
  | plainInterval {seconds : Nat} (h0 : 1 ≤ seconds) (h1 : seconds ≤ Interval.longest) :
      Accepted (.plainInterval seconds)

theorem Cadence.Accepted.plain_or_follows {c : Cadence} (h : c.Accepted) :
    (∃ seconds, 1 ≤ seconds ∧ c = .plainInterval seconds) ∨
      ∃ l time n, c.Follows l time n ∧ 1 ≤ n := by
  cases h with
  | weekly weekday time h0 h1 => exact .inr ⟨_, _, _, .weekly weekday time _, h0⟩
  | monthly time h0 h1 h2 => exact .inr ⟨_, _, _, .monthly h0 time _, h2⟩
  | dailyTime time h0 h1 => exact .inr ⟨_, _, _, .daily time _, Nat.le_refl 1⟩
  | plainInterval h0 h1 => exact .inl ⟨_, h0, rfl⟩

theorem Cadence.Accepted.one_le {c : Cadence} (h : c.Accepted) {l : DayLine} {time : TimeOfDay}
    {n : Nat} (hc : c.Follows l time n) : 1 ≤ n := by
  cases hc with
  | daily => exact Nat.le_refl 1
  | weekly =>
    cases h with
    | weekly _ _ h0 _ => exact h0
  | monthly =>
    cases h with
    | monthly _ _ _ h2 => exact h2

namespace ScheduleConfig

variable {configured : Option Interval} {default : Nat}

theorem check_eq_ok {α β : Type} {f : α → Except ScheduleError β} {x : Option α} {y : Option β}
    (h : check f x = .ok y) {b : β} (hb : y = some b) : ∃ a, x = some a ∧ f a = .ok b := by
  cases x with
  | none =>
    rw [check, Except.ok.injEq] at h
    rw [← h] at hb
    exact nomatch hb
  | some a =>
    refine ⟨a, rfl, ?_⟩
    rw [check] at h
    cases hf : f a with
    | error e =>
      rw [hf] at h
      exact nomatch h
    | ok b' =>
      rw [hf, Except.map, Except.ok.injEq, hb, Option.some.injEq] at h
      rw [h]

theorem checkDay_eq_ok {day d : Nat} (h : checkDay day = .ok d) : 1 ≤ d ∧ d ≤ 31 := by
  unfold checkDay at h
  split at h
  case isTrue hd =>
    rw [Except.ok.injEq] at h
    rwa [← h]
  case isFalse => exact nomatch h

theorem le_of_checkLength {n : Nat} (h : checkLength (some (.seconds n)) = .ok ()) :
    n ≤ Interval.longest := by
  by_contra hlt
  rw [checkLength, if_pos (by omega)] at h
  exact nomatch h

theorem requestedSeconds_bounds {seconds : Nat} (h0 : 1 ≤ default)
    (h1 : default ≤ Interval.longest) (hl : checkLength configured = .ok ())
    (h : requestedSeconds configured default = .ok seconds) :
    1 ≤ seconds ∧ seconds ≤ Interval.longest := by
  unfold requestedSeconds at h
  split at h
  case h_1 => exact nomatch h
  case h_2 n =>
    have hn := le_of_checkLength hl
    rw [Except.ok.injEq] at h
    split at h <;> omega
  case h_3 =>
    rw [Except.ok.injEq] at h
    omega

theorem requestedMonths_pos : 1 ≤ requestedMonths configured := by
  unfold requestedMonths
  split
  · split <;> omega
  · exact Nat.le_refl 1

theorem cadence_accepted {weekday : Option Weekday} {day : Option Nat} {time : Option TimeOfDay}
    {c : Cadence} {adjustments : List Adjustment} (h0 : 1 ≤ default)
    (h1 : default ≤ Interval.longest) (hl : checkLength configured = .ok ())
    (hd : ∀ d, day = some d → 1 ≤ d ∧ d ≤ 31)
    (h : cadence configured default weekday day time = .ok (c, adjustments)) : c.Accepted := by
  unfold cadence at h
  split at h
  case h_1 => exact nomatch h
  case h_2 weekday time =>
    obtain ⟨seconds, -, h⟩ := bind_eq_ok.1 h
    simp only at h
    split at h
    case isTrue hw =>
      rw [Except.ok.injEq, Prod.mk.injEq] at h
      rw [← h.1]
      exact .weekly weekday time (Nat.le_max_left ..) hw
    case isFalse => exact nomatch h
  case h_3 => exact nomatch h
  case h_4 d time =>
    rw [Except.ok.injEq, Prod.mk.injEq] at h
    have hd' := hd d rfl
    rw [← h.1]
    exact .monthly time hd'.1 hd'.2 requestedMonths_pos
  case h_5 =>
    obtain ⟨seconds, hs, h⟩ := bind_eq_ok.1 h
    have hb := requestedSeconds_bounds h0 h1 hl hs
    cases time with
    | some time =>
      simp only at h
      rw [Except.ok.injEq, Prod.mk.injEq] at h
      rw [← h.1]
      exact .dailyTime time hb.1 hb.2
    | none =>
      simp only at h
      rw [Except.ok.injEq, Prod.mk.injEq] at h
      rw [← h.1]
      exact .plainInterval hb.1 hb.2

variable [ZoneDatabase]

theorem accepted_of_normalize {config : ScheduleConfig} {defaults : ScheduleDefaults}
    {n : Normalized} (h : config.normalize defaults = .ok n) : n.schedule.cadence.Accepted := by
  unfold normalize at h
  simp only at h
  split at h
  case isTrue => exact nomatch h
  case isFalse hdef =>
    obtain ⟨weekday, -, h⟩ := bind_eq_ok.1 h
    obtain ⟨day, hday, h⟩ := bind_eq_ok.1 h
    have hd (d : Nat) (e : day = some d) : 1 ≤ d ∧ d ≤ 31 := by
      obtain ⟨a, -, ha⟩ := check_eq_ok hday e
      exact checkDay_eq_ok ha
    split at h
    case h_1 => exact nomatch h
    case h_2 =>
      obtain ⟨time, -, h⟩ := bind_eq_ok.1 h
      obtain ⟨zone, -, h⟩ := bind_eq_ok.1 h
      obtain ⟨⟨⟩, hl, h⟩ := bind_eq_ok.1 h
      obtain ⟨⟨c, adjustments⟩, hc, h⟩ := bind_eq_ok.1 h
      have e := Except.ok.inj h
      rw [← e]
      exact cadence_accepted (by omega) (by omega) hl hd hc

end ScheduleConfig

end Rota
